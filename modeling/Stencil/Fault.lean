import Stencil.Text.Quoted

/-!
# Faults

What goes wrong in operations on plain values: in arithmetic, comparison,
indexing, conversion, and in the functions of the host. A fault carries its
cause; `Fault.message` words it and `Fault.kind` says what sort of fault it is,
on which the evaluator decides whether to report it as a script error.
-/

namespace Stencil

/-- The sorts of faults. -/
inductive FaultKind where
  | type
  | value
  | key
  | index
  | zeroDivision
  | overflow
  | host
  | decoding
  | depth
  | script
  | attribute
  | memory
  | lookup
  | encoding
  | system
deriving DecidableEq

/-- How a call has the wrong number of arguments. -/
inductive ArityFault where
  /-- takes none -/
  | none (given : Nat)
  /-- takes exactly one -/
  | one (given : Nat)
  /-- takes at least so many -/
  | takesAtLeast (least given : Nat)
  /-- takes at most so many -/
  | takesAtMost (most given : Nat)
  /-- expects exactly so many -/
  | expected (count given : Nat)
  /-- expects at least so many -/
  | expectedAtLeast (least given : Nat)
  /-- expects at most so many -/
  | expectedAtMost (most given : Nat)
  /-- takes no arguments by position -/
  | unnamed
  /-- lacks these arguments -/
  | missing (names : List String)
  /-- has more than it takes -/
  | surplus (takes given : Nat)
  /-- has more than the largest number it takes -/
  | surplusOf (least most given : Nat)
  /-- has one twice, once by position and once by name -/
  | twice (name : String)
deriving DecidableEq

/-- A count with the right form of a noun. -/
def counted (n : Nat) (noun : String) : String :=
  toString n ++ " " ++ noun ++ if n == 1 then "" else "s"

/-- Things in a row, with commas before the last if there are more than two. -/
def enumeration : List String → String
  | [] => ""
  | [a] => a
  | [a, b] => a ++ " and " ++ b
  | [a, b, c] => a ++ ", " ++ b ++ ", and " ++ c
  | a :: rest => a ++ ", " ++ enumeration rest

/-- The wording of a wrong number of arguments for a callee. -/
def ArityFault.message (callee : String) : ArityFault → String
  | .none given => callee ++ "() takes no arguments (" ++ toString given ++ " given)"
  | .one given => callee ++ "() takes exactly one argument (" ++ toString given ++ " given)"
  | .takesAtLeast least given =>
    callee ++ "() takes at least " ++ counted least "argument" ++ " (" ++ toString given ++
      " given)"
  | .takesAtMost most given =>
    callee ++ "() takes at most " ++ counted most "argument" ++ " (" ++ toString given ++ " given)"
  | .expected count given =>
    callee ++ " expected " ++ counted count "argument" ++ ", got " ++ toString given
  | .expectedAtLeast least given =>
    callee ++ " expected at least " ++ counted least "argument" ++ ", got " ++ toString given
  | .expectedAtMost most given =>
    callee ++ " expected at most " ++ counted most "argument" ++ ", got " ++ toString given
  | .unnamed => callee ++ "() takes no positional arguments"
  | .missing names =>
    callee ++ "() missing " ++ counted names.length "required positional argument" ++ ": " ++
      enumeration (names.map fun n => "'" ++ n ++ "'")
  | .surplus takes given =>
    callee ++ "() takes " ++ counted takes "positional argument" ++ " but " ++ toString given ++
      " were given"
  | .surplusOf least most given =>
    callee ++ "() takes from " ++ toString least ++ " to " ++ toString most ++
      " positional arguments but " ++ toString given ++ " were given"
  | .twice name => callee ++ "() got multiple values for argument '" ++ name ++ "'"

/-- The cause of a failure on plain values. Types are given by name. -/
inductive Fault where
  -- operators
  | unsupported (operator left right : String)
  | cannotConcatenate (sequence other : String)
  | cannotRepeat (other : String)
  | cannotNegate (operand : String)
  | unordered (operator left right : String)
  | divisionByZero
  | floatDivisionByZero
  | integerModuloByZero
  | floatModuloByZero
  | integerTooLargeForFloat
  | quotientTooLarge
  | countTooLarge
  | repetitionTooLong
  | outOfMemory
  -- access
  | unhashable (type : String)
  | notIndexable (object key : String)
  | listIndexNotInteger (key : String)
  | notImportable (type : String)
  | noLength (type : String)
  | notIterable (type : String)
  | listIndexOutOfRange
  | listIndexTooLarge
  | missingKey (key : String)
  -- arguments
  | arity (callee : String) (problem : ArityFault)
  | notAnInteger (type : String)
  | integerTooLargeForSize
  | integerTooLargeForPrecision
  | badBound (noneAllowed : Bool)
  | notText (type : String)
  | notTextOrNone (type : String)
  | badStripArgument
  | badReplaceArgument (number : Nat) (type : String)
  | badAffix (operation type : String)
  | badAffixMember (operation type : String)
  | cannotJoin
  | cannotJoinItem (place : Nat) (type : String)
  | emptySeparator
  | substringNotFound
  /-- without the item if it cannot be shown -/
  | notInList (item : Option String)
  | notInTuple
  | popFromEmptyList
  | popOutOfRange
  -- numbers as text
  | tooManyDigitsToRead (count : Nat)
  | tooManyDigitsToWrite
  -- formats
  | tooFewFormatArguments
  | tooManyFormatArguments
  | incompleteFormat
  | incompleteFormatKey
  | formatNeedsMapping
  | unsupportedFormat (c : Char) (place : Nat)
  | starNeedsInteger
  | widthTooBig
  | precisionTooBig
  | precisionTooLarge
  | formatNeedsNumber (conversion : Char) (type : String)
  | formatNeedsInteger (conversion : Char) (type : String)
  | notReal (type : String)
  | infinityAsInteger
  | nanAsInteger
  | badFormatCharacter
  | formatCharacterOutOfRange
  -- trees
  | notEvaluable (type : String)
  | notCallable (type : String)
  -- the host
  | hostFailure (reason : String)
  | hostMissingKey (reason : String)
  | hostBadValue (reason : String)
  | undecodable (reason : String)
  | tooDeep
  | noAttribute (type name : String)
  | embeddedNull
  | nameTooLong (path : String)
  | unknownEncoding (name : String)
  | binaryEncoding (name : String)
  | noByteOrderMark (encoding : String)
  -- dictionaries of pairs
  | entryNoSequence (place : Nat)
  | entryLength (place length : Nat)
  -- an object that answers with a script error
  | refused (reason : String)
deriving DecidableEq

/-- The sort of a fault. -/
def Fault.kind : Fault → FaultKind
  | .divisionByZero | .floatDivisionByZero | .integerModuloByZero | .floatModuloByZero =>
    .zeroDivision
  | .integerTooLargeForFloat | .quotientTooLarge | .countTooLarge | .repetitionTooLong
  | .integerTooLargeForSize | .integerTooLargeForPrecision | .infinityAsInteger
  | .formatCharacterOutOfRange | .precisionTooLarge => .overflow
  | .listIndexOutOfRange | .listIndexTooLarge | .popFromEmptyList | .popOutOfRange => .index
  | .missingKey _ | .hostMissingKey _ => .key
  | .emptySeparator | .substringNotFound | .notInList _ | .notInTuple | .tooManyDigitsToRead _
  | .tooManyDigitsToWrite | .incompleteFormat | .incompleteFormatKey | .unsupportedFormat _ _
  | .widthTooBig | .precisionTooBig | .nanAsInteger | .hostBadValue _
  | .embeddedNull | .entryLength _ _ => .value
  | .hostFailure _ => .host
  | .undecodable _ => .decoding
  | .tooDeep => .depth
  | .refused _ => .script
  | .noAttribute _ _ => .attribute
  | .outOfMemory => .memory
  | .nameTooLong _ => .system
  | .unknownEncoding _ | .binaryEncoding _ => .lookup
  | .noByteOrderMark _ => .encoding
  | _ => .type

/-- The largest number of decimal digits that an integer may have as text. -/
def digitLimit : Nat := 4300

/-- One more than the largest number of characters that a value is built with. -/
def sizeLimit : Nat := Nat.pow 2 32

/-- One more than the largest number of items that a value is built with: an item takes
the room of eight characters. -/
def itemLimit : Nat := sizeLimit / 8

/-- Checks that a text can be made of so many characters. -/
def checkLength (n : Int) : Except Fault Unit :=
  if n < -Nat.pow 2 63 || Nat.pow 2 63 ≤ n then .error .countTooLarge
  else if sizeLimit ≤ n then .error .outOfMemory
  else .ok ()

/-- The wording of a fault. -/
def Fault.message : Fault → String
  | .unsupported operator left right =>
    "unsupported operand type(s) for " ++ operator ++ ": '" ++ left ++ "' and '" ++ right ++ "'"
  | .cannotConcatenate sequence other =>
    "can only concatenate " ++ sequence ++ " (not \"" ++ other ++ "\") to " ++ sequence
  | .cannotRepeat other => "can't multiply sequence by non-int of type '" ++ other ++ "'"
  | .cannotNegate operand => "bad operand type for unary -: '" ++ operand ++ "'"
  | .unordered operator left right =>
    "'" ++ operator ++ "' not supported between instances of '" ++ left ++ "' and '" ++ right ++ "'"
  | .divisionByZero => "division by zero"
  | .floatDivisionByZero => "float division by zero"
  | .integerModuloByZero => "integer modulo by zero"
  | .floatModuloByZero => "float modulo"
  | .integerTooLargeForFloat => "int too large to convert to float"
  | .quotientTooLarge => "integer division result too large for a float"
  | .countTooLarge => "cannot fit 'int' into an index-sized integer"
  | .repetitionTooLong => "repeated string is too long"
  | .outOfMemory => ""
  | .unhashable type => "unhashable type: '" ++ type ++ "'"
  | .notIndexable object key => "'" ++ object ++ "' object cannot be indexed by " ++ key
  | .listIndexNotInteger key => "list indices must be integers or slices, not " ++ key
  | .notImportable type =>
    "Cannot import '" ++ type ++
      "' into a scope: expected a mapping, a dataclass or an object with attributes"
  | .noLength type => "object of type '" ++ type ++ "' has no len()"
  | .notIterable type => "'" ++ type ++ "' object is not iterable"
  | .listIndexOutOfRange => "list index out of range"
  | .listIndexTooLarge => "cannot fit 'int' into an index-sized integer"
  | .missingKey key => Text.quoted key
  | .arity callee problem => problem.message callee
  | .notAnInteger type => "'" ++ type ++ "' object cannot be interpreted as an integer"
  | .integerTooLargeForSize => "Python int too large to convert to C ssize_t"
  | .integerTooLargeForPrecision => "Python int too large to convert to C int"
  | .badBound true => "slice indices must be integers or None or have an __index__ method"
  | .badBound false => "slice indices must be integers or have an __index__ method"
  | .notText type => "must be str, not " ++ type
  | .notTextOrNone type => "must be str or None, not " ++ type
  | .badStripArgument => "strip arg must be None or str"
  | .badReplaceArgument number type =>
    "replace() argument " ++ toString number ++ " must be str, not " ++
      if type = "NoneType" then "None" else type
  | .badAffix operation type =>
    operation ++ " first arg must be str or a tuple of str, not " ++ type
  | .badAffixMember operation type =>
    "tuple for " ++ operation ++ " must only contain str, not " ++ type
  | .cannotJoin => "can only join an iterable"
  | .cannotJoinItem place type =>
    "sequence item " ++ toString place ++ ": expected str instance, " ++ type ++ " found"
  | .emptySeparator => "empty separator"
  | .substringNotFound => "substring not found"
  | .notInList (some item) => item ++ " is not in list"
  | .notInList none => ""
  | .notInTuple => "tuple.index(x): x not in tuple"
  | .popFromEmptyList => "pop from empty list"
  | .popOutOfRange => "pop index out of range"
  | .tooManyDigitsToRead count =>
    "Exceeds the limit (" ++ toString digitLimit ++
      " digits) for integer string conversion: value has " ++ toString count ++
      " digits; use sys.set_int_max_str_digits() to increase the limit"
  | .tooManyDigitsToWrite =>
    "Exceeds the limit (" ++ toString digitLimit ++
      " digits) for integer string conversion; use sys.set_int_max_str_digits() to " ++
      "increase the limit"
  | .tooFewFormatArguments => "not enough arguments for format string"
  | .tooManyFormatArguments => "not all arguments converted during string formatting"
  | .incompleteFormat => "incomplete format"
  | .incompleteFormatKey => "incomplete format key"
  | .formatNeedsMapping => "format requires a mapping"
  | .unsupportedFormat c place =>
    "unsupported format character '" ++
      String.singleton (if 31 ≤ c.toNat && c.toNat ≤ 126 then c else '?') ++ "' (0x" ++
      String.ofList (Nat.toDigits 16 c.toNat) ++ ") at index " ++ toString place
  | .starNeedsInteger => "* wants int"
  | .widthTooBig => "width too big"
  | .precisionTooBig => "precision too big"
  | .precisionTooLarge => "precision too large"
  | .formatNeedsNumber conversion type =>
    "%" ++ String.singleton conversion ++ " format: a real number is required, not " ++ type
  | .formatNeedsInteger conversion type =>
    "%" ++ String.singleton conversion ++ " format: an integer is required, not " ++ type
  | .notReal type => "must be real number, not " ++ type
  | .infinityAsInteger => "cannot convert float infinity to integer"
  | .nanAsInteger => "cannot convert float NaN to integer"
  | .badFormatCharacter => "%c requires int or char"
  | .formatCharacterOutOfRange => "%c arg not in range(0x110000)"
  | .notEvaluable type =>
    "Cannot evaluate " ++ Text.quoted type ++
      ": not a Scrawl node and no evaluate(context) method"
  | .notCallable type => "'" ++ type ++ "' object is not callable"
  | .hostFailure reason => reason
  | .hostMissingKey reason => reason
  | .hostBadValue reason => reason
  | .undecodable reason => reason
  | .noAttribute type name => "'" ++ type ++ "' object has no attribute '" ++ name ++ "'"
  | .embeddedNull => "embedded null byte"
  | .nameTooLong path => "[Errno 36] File name too long: " ++ Text.quoted path
  | .unknownEncoding name => "unknown encoding: " ++ name
  | .binaryEncoding name =>
    "'" ++ name ++
      "' is not a text encoding; use codecs.open() to handle arbitrary codecs"
  | .noByteOrderMark encoding => encoding ++ " stream does not start with BOM"
  | .entryNoSequence place =>
    "cannot convert dictionary update sequence element #" ++ toString place ++ " to a sequence"
  | .entryLength place length =>
    "dictionary update sequence element #" ++ toString place ++ " has length " ++
      toString length ++ "; 2 is required"
  | .refused reason => reason
  | .tooDeep => "maximum recursion depth exceeded"

end Stencil
