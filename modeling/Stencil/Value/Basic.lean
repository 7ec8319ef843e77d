/-!
# Values

What names in a template are bound to and what expressions yield. Lists are
shared: two names may be bound to one list, and a change through either shows
through both, so a list value is only the place of its contents in a `Store`.
All other values never change. A value is nevertheless an object of its own,
told from others with the same content by the number it was given when it was
made; `Value.same` says when two are one and the same. Values of which there is
only one have the number zero. A literal of a tree is one object, however often
it is evaluated; it has the number zero until the tree is loaded and
`Value.numbered` gives it one.
-/

namespace Stencil

/-- The place of a shared list. -/
structure ListId where
  index : Nat
deriving DecidableEq

/-- The operations that text offers to templates. -/
inductive TextMethod where
  | upper
  | lower
  | strip
  | split
  | join
  | replace
  | startswith
  | endswith
  | find
  | index
  | count
  | isdigit
  | capitalize
  | zfill
deriving DecidableEq

/-- The name of a text operation. -/
def TextMethod.name : TextMethod → String
  | .upper => "upper"
  | .lower => "lower"
  | .strip => "strip"
  | .split => "split"
  | .join => "join"
  | .replace => "replace"
  | .startswith => "startswith"
  | .endswith => "endswith"
  | .find => "find"
  | .index => "index"
  | .count => "count"
  | .isdigit => "isdigit"
  | .capitalize => "capitalize"
  | .zfill => "zfill"

/-- All text operations. -/
def TextMethod.all : List TextMethod :=
  [.upper, .lower, .strip, .split, .join, .replace, .startswith, .endswith, .find, .index, .count,
    .isdigit, .capitalize, .zfill]

/-- The operations that lists offer to templates. -/
inductive ListMethod where
  | append
  | extend
  | insert
  | pop
  | clear
  | reverse
  | sort
  | copy
  | count
  | index
deriving DecidableEq

/-- The name of a list operation. -/
def ListMethod.name : ListMethod → String
  | .append => "append"
  | .extend => "extend"
  | .insert => "insert"
  | .pop => "pop"
  | .clear => "clear"
  | .reverse => "reverse"
  | .sort => "sort"
  | .copy => "copy"
  | .count => "count"
  | .index => "index"

/-- All list operations. -/
def ListMethod.all : List ListMethod :=
  [.append, .extend, .insert, .pop, .clear, .reverse, .sort, .copy, .count, .index]

/-- The operations that values of the built-in types offer to templates. -/
inductive Method where
  | text (m : TextMethod)
  | list (m : ListMethod)
  | tupleCount
  | tupleIndex
  | bitLength
  | isInteger
  /-- what a function that sees the context is called through -/
  | invoke
deriving DecidableEq

/-- The name of an operation. -/
def Method.name : Method → String
  | .text m => m.name
  | .list m => m.name
  | .tupleCount => "count"
  | .tupleIndex => "index"
  | .bitLength => "bit_length"
  | .isInteger => "is_integer"
  | .invoke => "invoke"

/-- The functions that the host program gives to templates. -/
inductive Function where
  /-- renders another template -/
  | include
  /-- called with the arguments alone -/
  | plain (name : String)
  /-- an object that can be called with the arguments alone -/
  | object (name typeName : String)
  /-- called with the execution context and the place of the call as well -/
  | contextual (name : String)
deriving DecidableEq

/-- The name under which a host knows a function. -/
def Function.name : Function → String
  | .include => "include"
  | .plain name => name
  | .object name _ => name
  | .contextual name => name

/-- The name of a function's type. -/
def Function.typeName : Function → String
  | .include => "IncludeFunction"
  | .plain _ => "function"
  | .object _ typeName => typeName
  | .contextual _ => "ContextFunction"

/-- Whether a function sees the context it is called in. -/
def Function.seesContext : Function → Bool
  | .include | .contextual _ => true
  | .plain _ | .object _ _ => false

/-- What a function is called in reports of its failures. -/
def Function.label : Function → String
  | .object _ typeName => typeName
  | f => f.name

/-- How an object refuses to be shown as text. -/
inductive Refusal where
  /-- with an error of the host -/
  | host (reason : String)
  /-- with a script error -/
  | script (reason : String)
deriving DecidableEq

/-- A value. The numbers tell objects apart. -/
inductive Value where
  | null
  | bool (b : Bool)
  | int (id : Nat) (n : Int)
  | float (id : Nat) (x : Float)
  | text (id : Nat) (s : String)
  | list (id : ListId)
  | tuple (id : Nat) (items : List Value)
  | dict (id : Nat) (entries : List (Value × Value))
  /-- a host object with its attributes -/
  | object (id : Nat) (typeName : String) (attributes : List (String × Value))
  /-- a host record with its fields -/
  | record (id : Nat) (typeName : String) (fields : List (String × Value))
  /-- a host object that cannot be shown -/
  | unprintable (id : Nat) (typeName : String) (refusal : Refusal)
  | function (id : Nat) (f : Function)
  /-- an operation of a value, not yet called -/
  | method (receiver : Value) (m : Method)
deriving Inhabited

/-- The name of a value's type. -/
def Value.typeName : Value → String
  | .null => "NoneType"
  | .bool _ => "bool"
  | .int _ _ => "int"
  | .float _ _ => "float"
  | .text _ _ => "str"
  | .list _ => "list"
  | .tuple _ _ => "tuple"
  | .dict _ _ => "dict"
  | .object _ typeName _ | .record _ typeName _ | .unprintable _ typeName _ => typeName
  | .function _ f => f.typeName
  | .method _ .invoke => "method"
  | .method _ _ => "builtin_function_or_method"

/-- Whether a value is null. -/
def Value.isNull : Value → Bool
  | .null => true
  | _ => false

/-- The integer a value counts as; booleans count as zero and one. -/
def Value.integer? : Value → Option Int
  | .int _ n => some n
  | .bool b => some (if b then 1 else 0)
  | _ => none

/-- The double a value is. -/
def Value.double? : Value → Option Float
  | .float _ x => some x
  | _ => none

/-- Whether two values are one and the same object. An operation that is taken
from the same object twice counts as the same. -/
def Value.same : Value → Value → Bool
  | .null, .null => true
  | .bool a, .bool b => a == b
  | .int i m, .int j n => i == j && m == n
  | .float i x, .float j y => i == j && x.toBits == y.toBits
  | .text i s, .text j t => i == j && s == t
  | .list i, .list j => i == j
  | .tuple i _, .tuple j _ => i == j
  | .dict i _, .dict j _ => i == j
  | .object i _ _, .object j _ _ => i == j
  | .record i _ _, .record j _ _ => i == j
  | .unprintable i _ _, .unprintable j _ _ => i == j
  | .function i f, .function j g => i == j && f == g
  | .method a m, .method b n => m == n && a.same b
  | _, _ => false

/-- Whether there is only one object for an integer. -/
def isSharedInt (n : Int) : Bool := decide (-5 ≤ n ∧ n ≤ 256)

/-- Whether there is only one object for a text that is read or cut out: for the
empty one, and for a single character among the first 256. -/
def isSharedText (text : String) : Bool :=
  text.utf8ByteSize ≤ 2 &&
    match text.toList with
    | [] => true
    | [c] => c.toNat < 256
    | _ => false

/-- The next of the numbers that are handed out. -/
def nextNumber : StateM Nat Nat := modifyGet fun n => (n, n + 1)

/-- A literal as an object with a number of its own. Values that have one keep it. -/
def Value.numbered (v : Value) : StateM Nat Value := do
  match v with
  | .int 0 n => if isSharedInt n then return v else return .int (← nextNumber) n
  | .float 0 x => return .float (← nextNumber) x
  | .text 0 s => if isSharedText s then return v else return .text (← nextNumber) s
  | v => return v

end Stencil
