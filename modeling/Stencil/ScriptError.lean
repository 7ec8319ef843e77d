import Stencil.Diagnostic
import Stencil.Terminal
import Stencil.Text.Quoted

/-!
# Script errors

What evaluation reports to the author of a template. A script error is a cause
and, where it is known, the place it is reported against. The kinds of errors
form a tree below `ErrorKind.script`, and most carry a code to search for.
-/

namespace Stencil

/-! ## Kinds and codes -/

/-- The kinds of script errors. -/
inductive ErrorKind where
  | script
  | invalidState
  | templateHasErrors
  | runtime
  | undefinedVariable
  | conversion
  | templateNotFound
  | «include»
  | includeArity
  | emptyName
  | emptyPath
  | configuration
  | load
  | includeParse
  | recursiveInclude
deriving DecidableEq

/-- The kind that a kind is a case of. -/
def ErrorKind.parent? : ErrorKind → Option ErrorKind
  | .script => none
  | .invalidState | .runtime => some .script
  | .templateHasErrors => some .invalidState
  | .undefinedVariable | .conversion | .templateNotFound | .include => some .runtime
  | .includeArity | .emptyName | .emptyPath | .configuration | .load | .includeParse
  | .recursiveInclude => some .include

/-- How far a kind stands below the root. -/
def ErrorKind.depth : ErrorKind → Nat
  | .script => 0
  | .invalidState | .runtime => 1
  | .templateHasErrors | .undefinedVariable | .conversion | .templateNotFound | .include => 2
  | _ => 3

/-- A parent stands one level higher. -/
theorem ErrorKind.depth_parent? {k p : ErrorKind} (h : k.parent? = some p) :
    p.depth < k.depth := by
  cases k <;> simp [parent?] at h <;> subst h <;> decide

/-- A kind and the kinds it is a case of, up to the root. -/
def ErrorKind.lineage (k : ErrorKind) : List ErrorKind :=
  match h : k.parent? with
  | none => [k]
  | some p =>
    have := ErrorKind.depth_parent? h
    k :: p.lineage
termination_by k.depth

/-- The codes under which errors can be looked up. -/
inductive ErrorCode where
  | templateHasErrors
  | unbalancedStack
  | runtimeError
  | undefinedVariable
  | conversion
  | templateNotFound
  | includeArity
  | includeEmptyName
  | includeEmptyPath
  | includeNoLoader
  | includeLoad
  | includeParse
  | includeRecursive
deriving DecidableEq

/-- All codes. -/
def ErrorCode.all : List ErrorCode :=
  [.templateHasErrors, .unbalancedStack, .runtimeError, .undefinedVariable, .conversion,
    .templateNotFound, .includeArity, .includeEmptyName, .includeEmptyPath, .includeNoLoader,
    .includeLoad, .includeParse, .includeRecursive]

/-- The areas that codes are grouped by. -/
inductive ErrorCategory where
  | state
  | runtime
  | «include»
deriving DecidableEq

/-- An area as text. -/
def ErrorCategory.text : ErrorCategory → String
  | .state => "state"
  | .runtime => "runtime"
  | .include => "include"

/-- An area inside codes. -/
def ErrorCategory.abbreviation : ErrorCategory → String
  | .state => "STA"
  | .runtime => "RUN"
  | .include => "INC"

/-- The area of a code. -/
def ErrorCode.category : ErrorCode → ErrorCategory
  | .templateHasErrors | .unbalancedStack => .state
  | .runtimeError | .undefinedVariable | .conversion | .templateNotFound => .runtime
  | _ => .include

/-- The number of a code in its area. -/
def ErrorCode.number : ErrorCode → Nat
  | .templateHasErrors | .runtimeError | .includeArity => 1
  | .unbalancedStack | .undefinedVariable | .includeEmptyName => 2
  | .conversion | .includeEmptyPath => 3
  | .templateNotFound | .includeNoLoader => 4
  | .includeLoad => 5
  | .includeParse => 6
  | .includeRecursive => 7

/-- A code as text: area and number. -/
def ErrorCode.text (c : ErrorCode) : String :=
  "S-" ++ c.category.abbreviation ++ "-00" ++ toString c.number

/-- The code of a kind. -/
def ErrorKind.code? : ErrorKind → Option ErrorCode
  | .script => none
  | .invalidState => some .unbalancedStack
  | .templateHasErrors => some .templateHasErrors
  | .runtime | .include => some .runtimeError
  | .undefinedVariable => some .undefinedVariable
  | .conversion => some .conversion
  | .templateNotFound => some .templateNotFound
  | .includeArity => some .includeArity
  | .emptyName => some .includeEmptyName
  | .emptyPath => some .includeEmptyPath
  | .configuration => some .includeNoLoader
  | .load => some .includeLoad
  | .includeParse => some .includeParse
  | .recursiveInclude => some .includeRecursive

/-! ## Causes -/

/-- The stacks of an execution context. -/
inductive StackName where
  | scopes
  | outputs
  | sourceFiles
deriving DecidableEq

/-- A stack in the names of the operations on it. -/
def StackName.text : StackName → String
  | .scopes => "global"
  | .outputs => "output"
  | .sourceFiles => "source_file"

/-- Why a loader did not find a template. -/
inductive NotFound where
  /-- among these names of a table -/
  | names (name : String) (closest : Option String) (available : List String)
  /-- under these directories -/
  | directories (name : String) (roots : List String)
  /-- through any of so many loaders -/
  | choices (name : String) (count : Nat)
deriving DecidableEq

/-- Why an evaluation failed. Types are given by name. -/
inductive Cause where
  -- state
  | templateHasErrors (path : Option String) (diagnostics : List Diagnostic)
  | unmatchedPop (stack : StackName)
  | noScope
  | cannotSet (name : String)
  -- expressions
  | undefinedVariable (name : String)
  | functionNotFound (name : String)
  | notAFunction (type : String)
  | callFailed (label reason : String)
  | cannotIndex (reason : String)
  | cannotNegate (type : String)
  | cannotApply (operator left right reason : String)
  | cannotCompare (left right operator : String)
  | cannotIterate (type : String)
  | cannotConvert (type reason : String)
  -- includes
  | includeArity
  | cannotConvertName (type reason : String)
  | emptyName
  | noLoader (name : String)
  | notFound (reason : NotFound)
  | emptyPath (name : String)
  | noContent (path : String)
  | unparsable (name path : String) (diagnostics : List Diagnostic)
  | recursive (name : String) (pending : List String)
  -- the host
  | reported (kind : ErrorKind) (text : String) (hint : Option String)
    (diagnostics : List Diagnostic)
deriving DecidableEq

/-- The kind of error that a cause makes. -/
def Cause.kind : Cause → ErrorKind
  | .templateHasErrors _ _ => .templateHasErrors
  | .unmatchedPop _ | .noScope | .cannotSet _ => .invalidState
  | .undefinedVariable _ => .undefinedVariable
  | .cannotConvert _ _ | .cannotConvertName _ _ => .conversion
  | .includeArity => .includeArity
  | .emptyName => .emptyName
  | .noLoader _ => .configuration
  | .notFound _ => .templateNotFound
  | .emptyPath _ => .emptyPath
  | .noContent _ => .load
  | .unparsable _ _ _ => .includeParse
  | .recursive _ _ => .recursiveInclude
  | .reported kind _ _ _ => kind
  | _ => .runtime

/-- How many names are offered where none is close. -/
def offeredNames : Nat := 10

/-- The wording of a failed search. -/
def NotFound.text : NotFound → String
  | .names name closest available =>
    "Template '" ++ name ++ "' not found" ++
      match closest with
      | some other => ". Did you mean '" ++ other ++ "'?"
      | none =>
        if available.isEmpty then ""
        else
          ". Available: " ++ ", ".intercalate (available.take offeredNames) ++
            if offeredNames < available.length then
              " ... (" ++ toString available.length ++ " total)"
            else ""
  | .directories name roots =>
    "Template '" ++ name ++ "' not found in: " ++ ", ".intercalate roots
  | .choices name count =>
    "Template '" ++ name ++ "' not found in any of " ++ toString count ++ " loaders"

/-- Diagnostics below a heading, one on a line. -/
def indented (ds : List Diagnostic) : List String :=
  ds.map fun d => "  " ++ d.summary

/-- The wording of a cause. -/
def Cause.text : Cause → String
  | .templateHasErrors path diagnostics =>
    "\n".intercalate
      (("Template " ++ sourceName path ++ " has errors and cannot be evaluated:") ::
        indented (diagnostics.filter Diagnostic.isError))
  | .unmatchedPop stack =>
    "Unexpected pop_" ++ stack.text ++ "() without a matching push_" ++ stack.text ++ "()"
  | .noScope => "No scope has been pushed on this context"
  | .cannotSet name => "Cannot set `" ++ name ++ "`: no scope has been pushed on this context"
  | .undefinedVariable name => "The variable or function `" ++ name ++ "` was not found"
  | .functionNotFound name => "The function `" ++ name ++ "` was not found"
  | .notAFunction type => "A value of type '" ++ type ++ "' is not a function"
  | .callFailed label reason => "Error while calling `" ++ label ++ "`: " ++ reason
  | .cannotIndex reason => reason
  | .cannotNegate type => "Cannot negate a value of type '" ++ type ++ "'"
  | .cannotApply operator left right reason =>
    "Cannot apply '" ++ operator ++ "' to '" ++ left ++ "' and '" ++ right ++ "': " ++ reason
  | .cannotCompare left right operator =>
    "Cannot compare '" ++ left ++ "' with '" ++ right ++ "' using '" ++ operator ++ "'"
  | .cannotIterate type => "Cannot iterate over a value of type '" ++ type ++ "'"
  | .cannotConvert type reason =>
    "Unable to convert a value of type '" ++ type ++ "' to text: " ++ reason
  | .includeArity => "Expecting at least the name of the template to include"
  | .cannotConvertName type reason =>
    "Unable to convert the include name of type '" ++ type ++ "' to a string: " ++ reason
  | .emptyName => "Include template name cannot be empty"
  | .noLoader name =>
    "Unable to include <" ++ name ++
      ">: no template loader is registered on the execution context"
  | .notFound reason => reason.text
  | .emptyPath name => "Include template path is empty for <" ++ name ++ ">"
  | .noContent path => "The loader returned no content for <" ++ path ++ ">"
  | .unparsable name path _ =>
    "Error while parsing template <" ++ name ++ "> from <" ++ path ++ ">"
  | .recursive name _ => "The include [" ++ name ++ "] cannot be used recursively"
  | .reported _ text _ _ => text

/-- What to do about a cause. -/
def Cause.hint? : Cause → Option String
  | .templateHasErrors _ _ => some "Check Template.diagnostics for details"
  | .undefinedVariable _ => some "Define it before use, or disable strict_variables"
  | .noLoader _ => some "Pass loader=... to ExecutionContext"
  | .recursive _ _ => some "Check for circular includes: a -> b -> a"
  | .reported _ _ hint _ => hint
  | _ => none

/-- The diagnostics that a cause carries. -/
def Cause.diagnostics : Cause → List Diagnostic
  | .templateHasErrors _ diagnostics => diagnostics
  | .unparsable _ _ diagnostics => diagnostics
  | .reported _ _ _ diagnostics => diagnostics
  | _ => []

/-! ## Errors -/

/-- A script error. -/
structure ScriptError where
  cause : Cause
  span : Option Span := none
deriving DecidableEq

namespace ScriptError

/-- The kind of the error. -/
def kind (e : ScriptError) : ErrorKind := e.cause.kind

/-- The error without its place. -/
def text (e : ScriptError) : String := e.cause.text

/-- The error with its place and, for an included template that cannot be
parsed, the diagnostics of that template. -/
def message (e : ScriptError) : String :=
  let header :=
    match e.span with
    | some span => span.text ++ " : error : " ++ e.text
    | none => e.text
  let nested := if e.kind = .includeParse then indented e.cause.diagnostics else []
  "\n".intercalate (header :: nested)

/-- The error for a terminal: code and text, place, hint. -/
def report (colors : Bool) (e : ScriptError) : String :=
  let code :=
    match e.kind.code? with
    | some code => code.text ++ ": "
    | none => ""
  let place :=
    match e.span with
    | some span => Terminal.location colors span.text
    | none => "<template>"
  let hint :=
    match e.cause.hint? with
    | some hint => if hint = "" then [] else ["  " ++ Terminal.hint colors "Hint:" ++ " " ++ hint]
    | none => []
  "\n".intercalate ((code ++ e.text) :: ("  --> " ++ place) :: hint)

end ScriptError

end Stencil
