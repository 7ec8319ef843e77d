import Stencil.Number.Decimal
import Stencil.Value.Equality

/-!
# Values as text

A value has two texts. `display` is what a template writes: nothing for null,
`true` and `false`, text as it is. `bare` is what the host writes, and `quoted`
the same with text in quotes, as for a part of another value. Objects may
refuse to be shown, and integers may be too long to be written. In quotes, a
value that comes up inside itself is only hinted at; `display` of a list that
holds itself goes too deep.
-/

namespace Stencil

/-- An integer in decimal, up to the digit limit. -/
def integerText (n : Int) : Except Fault String :=
  if n.natAbs < Nat.pow 10 digitLimit then .ok (toString n) else .error .tooManyDigitsToWrite

/-- The failure to be shown. -/
def Refusal.fault : Refusal → Fault
  | .host reason => .hostFailure reason
  | .script reason => .refused reason

/-- A function as text. -/
def Function.description (f : Function) : String := "<" ++ f.typeName ++ ">"

/-- A value without parts as text in quotes. -/
def Value.quotedAtom : Value → Except Fault String
  | .null => .ok "None"
  | .bool b => .ok (if b then "True" else "False")
  | .int _ n => integerText n
  | .float _ x => .ok (Number.floatText x)
  | .text _ s => .ok (Text.quoted s)
  | .unprintable _ _ refusal => .error refusal.fault
  | .method (.function _ f) .invoke =>
    .ok ("<bound method " ++ f.typeName ++ ".invoke of " ++ f.description ++ ">")
  | .method _ m => .ok ("<method " ++ m.name ++ ">")
  | v => .ok ("<" ++ v.typeName ++ ">")

namespace Store

/-- A value in quotes, inside the values `outer`, down to a depth. -/
def quotedWithin (s : Store) : Nat → List Value → Value → Except Fault String
  | 0, _, _ => .error .tooDeep
  | depth + 1, outer, v =>
    let again := outer.any v.same
    let part := s.quotedWithin depth (v :: outer)
    match v with
    | .list id =>
      if again then .ok "[...]"
      else do return "[" ++ ", ".intercalate (← (s.contents id).mapM part) ++ "]"
    | .tuple _ [item] => if again then .ok "(...)" else do return "(" ++ (← part item) ++ ",)"
    | .tuple _ items =>
      if again && !items.isEmpty then .ok "(...)"
      else do return "(" ++ ", ".intercalate (← items.mapM part) ++ ")"
    | .dict _ entries =>
      if again then .ok "\x7b...\x7d"
      else do
        let texts ← entries.mapM fun (k, v) => do return (← part k) ++ ": " ++ (← part v)
        return "\x7b" ++ ", ".intercalate texts ++ "\x7d"
    | .record _ typeName fields =>
      if again then .ok "..."
      else do
        let texts ← fields.mapM fun (name, v) => do return name ++ "=" ++ (← part v)
        return typeName ++ "(" ++ ", ".intercalate texts ++ ")"
    | v => v.quotedAtom

/-- A value in quotes now. -/
def quoted (s : Store) (v : Value) : Except Fault String := s.quotedWithin depthLimit [] v

/-- A value as the host writes it now: in quotes, but text as it is. -/
def bare (s : Store) : Value → Except Fault String
  | .text _ t => .ok t
  | v => s.quoted v

/-- A value as a template writes it, down to a depth. -/
def displayWithin (s : Store) : Nat → Value → Except Fault String
  | 0, _ => .error .tooDeep
  | depth + 1, v =>
    let part := s.displayWithin depth
    match v with
    | .null => .ok ""
    | .text _ t => .ok t
    | .bool b => .ok (if b then "true" else "false")
    | .list id => do return "[" ++ ", ".intercalate (← (s.contents id).mapM part) ++ "]"
    | .tuple _ items => do return "[" ++ ", ".intercalate (← items.mapM part) ++ "]"
    | .dict _ entries => do
      let texts ← entries.mapM fun (k, v) => do return (← part k) ++ ": " ++ (← part v)
      return "\x7b" ++ ", ".intercalate texts ++ "\x7d"
    | v => s.quoted v

/-- A value as a template writes it now. -/
def display (s : Store) (v : Value) : Except Fault String := s.displayWithin depthLimit v

end Store

end Stencil
