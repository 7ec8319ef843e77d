import Stencil.Sorting
import Stencil.Text.Blank
import Stencil.Text.Case
import Stencil.Text.Digit
import Stencil.Text.Search
import Stencil.Value.Member

/-!
# Operations of values

What templates call on text, lists, tuples and numbers. Each operation checks
how many arguments it gets, then what they are.
-/

namespace Stencil

/-! ## Arguments -/

/-- One more than the largest index. -/
def indexLimit : Int := Nat.pow 2 63

/-- An argument that counts or is an index. -/
def indexArgument (v : Value) : Except Fault Int :=
  match v.integer? with
  | none => .error (.notAnInteger v.typeName)
  | some n =>
    if n < -indexLimit || indexLimit ≤ n then .error .integerTooLargeForSize else .ok n

/-- An argument that bounds a search; null may stand for no bound. -/
def boundArgument (nullAllowed : Bool) (v : Value) : Except Fault (Option Int) :=
  match v.integer? with
  | some n => .ok (some n)
  | none => if nullAllowed && v.isNull then .ok none else .error (.badBound nullAllowed)

/-- The bounds of a search from its further arguments. -/
def boundArguments (nullAllowed : Bool) : List Value → Except Fault (Option Int × Option Int)
  | [] => .ok (none, none)
  | [start] => do return (← boundArgument nullAllowed start, none)
  | start :: stop :: _ => do
    return (← boundArgument nullAllowed start, ← boundArgument nullAllowed stop)

/-- A bound counted from the end if it is negative, but not before the start. -/
def fromStart (length : Nat) (n : Int) : Nat := (if n < 0 then n + length else n).toNat

/-- Where a search in `length` places starts and stops. -/
def searchWindow (length : Nat) (bounds : Option Int × Option Int) : Nat × Nat :=
  ((bounds.1.map (fromStart length)).getD 0,
    min length ((bounds.2.map (fromStart length)).getD length))

/-- An argument that is text. -/
def textArgument (v : Value) : Except Fault (List Char) :=
  match v with
  | .text _ t => .ok t.toList
  | v => .error (.notText v.typeName)

/-- A limit on cuts or replacements: a negative one is none. -/
def limitArgument (v : Value) : Except Fault (Option Nat) := do
  let n ← indexArgument v
  return if n < 0 then none else some n.toNat

/-! ## Text -/

/-- A piece of text at its place, cut out between two bounds; none if they are
out of order. -/
def cutOut? (cs : List Char) (bounds : Option Int × Option Int) : Option (Nat × List Char) :=
  let (start, stop) := searchWindow cs.length bounds
  if start ≤ stop then some (start, (cs.drop start).take (stop - start)) else none

/-- Where text is found between bounds. -/
def findBetween (cs needle : List Char) (bounds : Option Int × Option Int) : Option Nat :=
  match cutOut? cs bounds with
  | some (start, piece) => (Text.find? needle piece).map (start + ·)
  | none => none

/-- The arguments of a search in text: what to look for, and bounds. -/
def searchArguments (callee : String) (arguments : List Value) :
    Except Fault (Value × Option Int × Option Int) := do
  match arguments with
  | [] => throw (.arity callee (.takesAtLeast 1 0))
  | needle :: bounds =>
    if 2 < bounds.length then throw (.arity callee (.takesAtMost 3 arguments.length))
    return (needle, ← boundArguments true bounds)

/-- Whether text begins (or ends) with a piece. -/
def hasAffix (atEnd : Bool) (piece affix : List Char) : Bool :=
  if atEnd then affix.isSuffixOf piece else affix.isPrefixOf piece

/-- Whether text begins (or ends) with any of some pieces. -/
def hasAnyAffix (callee : String) (atEnd : Bool) (piece : Option (List Char)) :
    List Value → Except Fault Bool
  | [] => .ok false
  | .text _ affix :: rest =>
    if piece.any (hasAffix atEnd · affix.toList) then .ok true
    else hasAnyAffix callee atEnd piece rest
  | v :: _ => .error (.badAffixMember callee v.typeName)

/-- Whether text begins (or ends) with a piece, or with any of a tuple. -/
def affixTest (callee : String) (atEnd : Bool) (cs : List Char) (arguments : List Value) :
    Except Fault Value := do
  let (affix, bounds) ← searchArguments callee arguments
  let piece := (cutOut? cs bounds).map (·.2)
  match affix with
  | .text _ affix => return .bool (piece.any (hasAffix atEnd · affix.toList))
  | .tuple _ items => return .bool (← hasAnyAffix callee atEnd piece items)
  | v => throw (.badAffix callee v.typeName)

/-- Text with zeros after its sign, up to a width. -/
def zeroFilled (width : Int) (cs : List Char) : List Char :=
  let zeros := List.replicate (width - cs.length).toNat '0'
  match cs with
  | '+' :: rest => '+' :: (zeros ++ rest)
  | '-' :: rest => '-' :: (zeros ++ rest)
  | cs => zeros ++ cs

/-- The texts of items to be joined; all must be text. -/
def joinItems : Nat → List Value → Except Fault (List String)
  | _, [] => .ok []
  | n, .text _ t :: rest => do return t :: (← joinItems (n + 1) rest)
  | n, v :: _ => .error (.cannotJoinItem n v.typeName)

/-- A text cut out of another one. -/
def cutFrom (whole : Value) (piece : String) : Computation Value :=
  Computation.changedText whole (Computation.newText piece) piece

/-- A text spelled anew after another one. -/
def respelled (whole : Value) (text : String) : Computation Value :=
  Computation.changedText whole (Computation.newSpelling text) text

/-- A list of pieces of a text, each made by `piece`. -/
def newPieces (piece : String → Computation Value) (pieces : List (List Char)) :
    Computation Value := do
  Computation.newList (← pieces.mapM fun cs => piece (String.ofList cs))

/-- Text cut into pieces. Where it is not cut at all the piece is the same object,
unless white space was looked for and no cut allowed. -/
def splitText (whole : Value) (cs : List Char) (arguments : List Value) : Computation Value := do
  if 2 < arguments.length then throw (.arity "split" (.takesAtMost 2 arguments.length))
  let limit ← match arguments[1]? with
    | some v => Computation.ofExcept (limitArgument v)
    | none => pure none
  match arguments.head? with
  | none | some .null =>
    let piece := if limit == some 0 then Computation.newText else cutFrom whole
    newPieces piece (Text.splitBlank Text.isBlank (limit.getD cs.length) cs)
  | some (.text _ separator) =>
    if separator = "" then throw .emptySeparator
    newPieces (cutFrom whole) (Text.split separator.toList limit cs)
  | some v => throw (.notTextOrNone v.typeName)

/-- Text with pieces replaced. -/
def replaceText (cs : List Char) (arguments : List Value) : Except Fault String := do
  match arguments with
  | old :: new :: rest =>
    if 1 < rest.length then throw (.arity "replace" (.expectedAtMost 3 arguments.length))
    let .text _ old := old | throw (.badReplaceArgument 1 old.typeName)
    let .text _ new := new | throw (.badReplaceArgument 2 new.typeName)
    let limit ← match rest.head? with
      | some v => limitArgument v
      | none => pure none
    return String.ofList (Text.replace old.toList new.toList limit cs)
  | _ => throw (.arity "replace" (.expectedAtLeast 2 arguments.length))

/-- Whether replacing leaves a text as it is: nothing may be replaced, a piece would
take its own place, or the piece is not found. -/
def leavesText (cs : List Char) (arguments : List Value) : Bool :=
  match arguments with
  | old :: new :: limit =>
    limit.any (·.integer? == some 0) || old.same new ||
      match old with
      | .text _ piece => (Text.find? piece.toList cs).isNone
      | _ => false
  | _ => false

/-- Text without the white space, or the given characters, at its ends. -/
def stripText (cs : List Char) (arguments : List Value) : Except Fault String := do
  match arguments with
  | [] | [.null] => return String.ofList (Text.trimBoth Text.isBlank cs)
  | [.text _ drop] => return String.ofList (Text.trimBoth drop.toList.contains cs)
  | [_] => throw .badStripArgument
  | _ => throw (.arity "strip" (.expectedAtMost 1 arguments.length))

/-- The result of an operation that takes no arguments. -/
def withoutArguments {α : Type} (callee : String) (arguments : List Value) (result : α) :
    Except Fault α :=
  if arguments.isEmpty then .ok result else .error (.arity callee (.none arguments.length))

/-- The one argument of an operation. -/
def onlyArgument (callee : String) (arguments : List Value) : Except Fault Value :=
  match arguments with
  | [v] => .ok v
  | _ => .error (.arity callee (.one arguments.length))

/-- The place of a piece of text, if it is found. -/
def searchText (callee : String) (cs : List Char) (arguments : List Value) :
    Except Fault (Option Nat) := do
  let (needle, bounds) ← searchArguments callee arguments
  return findBetween cs (← textArgument needle) bounds

/-- How often a piece of text is found. -/
def countText (callee : String) (cs : List Char) (arguments : List Value) : Except Fault Nat := do
  let (needle, bounds) ← searchArguments callee arguments
  let needle ← textArgument needle
  match cutOut? cs bounds with
  | some (_, piece) => return Text.occurrences needle piece
  | none => return 0

/-- Text as separator between the texts of a sequence; of one text nothing is
joined. -/
def joinText (t : String) (arguments : List Value) : Computation Value := do
  let items ← Computation.ofExcept (onlyArgument "str.join" arguments)
  match ← Computation.elements? items with
  | none => throw .cannotJoin
  | some items =>
    let texts ← Computation.ofExcept (joinItems 0 items)
    match items with
    | [item] => return item
    | _ => Computation.newSpelling (t.intercalate texts)

/-- The operations of text; `whole` is the text `t` as a value. -/
def TextMethod.call (m : TextMethod) (whole : Value) (t : String) (arguments : List Value) :
    Computation Value :=
  let cs := t.toList
  let recased (cs : List Char) : Computation Value := do
    let cs ← Computation.ofExcept (withoutArguments ("str." ++ m.name) arguments cs)
    Computation.newSpelling (String.ofList cs)
  match m with
  | .upper => recased (Text.upper cs)
  | .lower => recased (Text.lower cs)
  | .capitalize => recased (Text.capitalize cs)
  | .isdigit =>
    Computation.ofExcept
      (withoutArguments "str.isdigit" arguments (.bool (!cs.isEmpty && cs.all Text.isDigit)))
  | .strip => do
    cutFrom whole (← Computation.ofExcept (stripText cs arguments))
  | .replace => do
    let text ← Computation.ofExcept (replaceText cs arguments)
    if leavesText cs arguments then pure whole else Computation.newSpelling text
  | .startswith => Computation.ofExcept (affixTest m.name false cs arguments)
  | .endswith => Computation.ofExcept (affixTest m.name true cs arguments)
  | .find => do
    match ← Computation.ofExcept (searchText m.name cs arguments) with
    | some n => Computation.newInt n
    | none => Computation.newInt (-1)
  | .index => do
    match ← Computation.ofExcept (searchText m.name cs arguments) with
    | some n => Computation.newInt n
    | none => throw .substringNotFound
  | .count => do Computation.newInt (← Computation.ofExcept (countText m.name cs arguments))
  | .zfill => do
    let width ← Computation.ofExcept (onlyArgument "str.zfill" arguments)
    let width ← Computation.ofExcept (indexArgument width)
    if sizeLimit ≤ width then throw .outOfMemory
    respelled whole (String.ofList (zeroFilled width cs))
  | .split => splitText whole cs arguments
  | .join => joinText t arguments

/-! ## Lists and tuples -/

/-- The first place of a value among items, the first of which stands at `place`. -/
def Store.placeOf? (s : Store) (v : Value) (place : Nat) : List Value → Except Fault (Option Nat)
  | [] => .ok none
  | item :: rest => do
    if ← s.alike item v then return some place else s.placeOf? v (place + 1) rest

/-- How often a value is among items. -/
def Store.countOf (s : Store) (v : Value) : List Value → Except Fault Nat
  | [] => .ok 0
  | item :: rest => do
    let here ← s.alike item v
    return (← s.countOf v rest) + here.toNat

/-- The arguments of a search in a sequence: a value, and bounds. -/
def placeArguments (arguments : List Value) :
    Except Fault (Value × Option Int × Option Int) := do
  match arguments with
  | [] => throw (.arity "index" (.expectedAtLeast 1 0))
  | v :: bounds =>
    if 2 < bounds.length then throw (.arity "index" (.expectedAtMost 3 arguments.length))
    return (v, ← boundArguments false bounds)

/-- The place of a value in a sequence. -/
def placeOf (items arguments : List Value) (missing : Value → Computation Fault) :
    Computation Value := do
  let (v, bounds) ← Computation.ofExcept (placeArguments arguments)
  let (start, stop) := searchWindow items.length bounds
  match ← Computation.read (·.placeOf? v start ((items.take stop).drop start)) with
  | some n => Computation.newInt n
  | none => throw (← missing v)

/-- How often a value is in a sequence. -/
def countOf (callee : String) (items arguments : List Value) : Computation Value := do
  let v ← Computation.ofExcept (onlyArgument callee arguments)
  Computation.newInt (← Computation.read (·.countOf v items))

/-- Takes an item out of a list. -/
def popItem (id : ListId) (items arguments : List Value) : Computation Value := do
  if 1 < arguments.length then throw (.arity "pop" (.expectedAtMost 1 arguments.length))
  let i ← match arguments.head? with
    | some v => Computation.ofExcept (indexArgument v)
    | none => pure (-1)
  if items.isEmpty then throw .popFromEmptyList
  let i := if i < 0 then i + items.length else i
  if i < 0 then throw .popOutOfRange
  match items[i.toNat]? with
  | none => throw .popOutOfRange
  | some v =>
    Computation.setContents id (items.eraseIdx i.toNat)
    return v

/-- Puts an item into a list. -/
def insertItem (id : ListId) (items arguments : List Value) : Computation Value := do
  let [place, v] := arguments | throw (.arity "insert" (.expected 2 arguments.length))
  let n := fromStart items.length (← Computation.ofExcept (indexArgument place))
  Computation.setContents id (items.take n ++ v :: items.drop n)
  return .null

/-- Sorts a list in place. While it is being sorted the list is empty for all who
look at it. -/
def sortItems (id : ListId) (items arguments : List Value) : Computation Value := do
  if 2 < arguments.length then throw (.arity "sort" (.takesAtMost 2 arguments.length))
  if !arguments.isEmpty then throw (.arity "sort" .unnamed)
  Computation.setContents id []
  let s ← get
  let (sorted, failure) := Sorting.sort (fun a b => s.compareBy .lt a b) items
  Computation.setContents id sorted
  match failure with
  | some e => throw e
  | none => return .null

/-- The operations of lists. -/
def ListMethod.call (m : ListMethod) (id : ListId) (arguments : List Value) :
    Computation Value :=
  let callee := "list." ++ m.name
  let replaceBy (items : List Value) : Computation Value := do
    Computation.setContents id items
    return .null
  match m with
  | .append => do
    Computation.push id (← Computation.ofExcept (onlyArgument callee arguments))
    return .null
  | .extend => do
    let more ← Computation.elements (← Computation.ofExcept (onlyArgument callee arguments))
    more.forM (Computation.push id)
    return .null
  | .insert => do insertItem id (← Computation.contents id) arguments
  | .pop => do popItem id (← Computation.contents id) arguments
  | .clear => do replaceBy (← Computation.ofExcept (withoutArguments callee arguments []))
  | .reverse => do
    let items ← Computation.contents id
    replaceBy (← Computation.ofExcept (withoutArguments callee arguments items.reverse))
  | .sort => do sortItems id (← Computation.contents id) arguments
  | .copy => do
    let items ← Computation.contents id
    Computation.newList (← Computation.ofExcept (withoutArguments callee arguments items))
  | .count => do countOf callee (← Computation.contents id) arguments
  | .index => do
    placeOf (← Computation.contents id) arguments fun v =>
      return .notInList ((← get).quoted v).toOption

/-! ## All operations -/

/-- The number of bits of a magnitude. -/
def bitCount (n : Int) : Nat := if n == 0 then 0 else n.natAbs.log2 + 1

/-- Whether a double is a whole number. -/
def isWholeDouble (x : Float) : Bool := (Number.Dyadic.ofFloat? x).any Number.Dyadic.isWhole

/-- Invokes a function that sees the context with what a template gives it. A
template cannot give it a context, so it finds none at the first argument. -/
def invokeDirectly (typeName : String) (arguments : List Value) : Fault :=
  let callee := typeName ++ ".invoke"
  match arguments with
  | context :: _ :: _ :: rest =>
    if 1 < rest.length then .arity callee (.surplusOf 4 5 (arguments.length + 1))
    else .noAttribute context.typeName "_locate"
  | given => .arity callee (.missing (["context", "call_span", "arguments"].drop given.length))

/-- Calls an operation of a value. -/
def Method.call (m : Method) (receiver : Value) (arguments : List Value) : Computation Value :=
  match m, receiver with
  | .text m, .text _ t => m.call receiver t arguments
  | .list m, .list id => m.call id arguments
  | .tupleCount, .tuple _ items => countOf "tuple.count" items arguments
  | .tupleIndex, .tuple _ items => placeOf items arguments fun _ => pure .notInTuple
  | .invoke, v => throw (invokeDirectly v.typeName arguments)
  | .bitLength, v => do
    let count := bitCount (v.integer?.getD 0)
    Computation.newInt
      (← Computation.ofExcept
        (withoutArguments (v.typeName ++ ".bit_length") arguments (count : Int)))
  | .isInteger, v =>
    Computation.ofExcept
      (withoutArguments "float.is_integer" arguments
        (.bool ((v.double?.map isWholeDouble).getD false)))
  | _, _ => pure .null

end Stencil
