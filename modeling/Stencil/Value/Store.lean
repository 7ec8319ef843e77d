import Stencil.Value.Basic

/-!
# The store of shared lists

A list value is the place of its contents in the store. Making a list takes a
new place, so no two lists ever share one. The store also hands out the numbers
that tell other values apart; zero is never handed out, it is the number of
small integers, short texts and the empty tuple, of which there is one each.
-/

namespace Stencil

/-- The contents of the shared lists, and the next number to hand out. -/
structure Store where
  lists : Array (Array Value) := #[]
  nextNumber : Nat := 1

namespace Store

/-- What a list holds now. -/
def contents (s : Store) (id : ListId) : List Value :=
  (s.lists[id.index]?.getD #[]).toList

/-- How many items a list holds now. -/
def size (s : Store) (id : ListId) : Nat := (s.lists[id.index]?.getD #[]).size

/-- The item of a list at a place. -/
def item? (s : Store) (id : ListId) (place : Nat) : Option Value :=
  (s.lists[id.index]?.getD #[])[place]?

/-- Makes a list with the given contents. -/
def newList (s : Store) (items : List Value) : ListId × Store :=
  (⟨s.lists.size⟩, { s with lists := s.lists.push items.toArray })

/-- Gives a list other contents. -/
def setContents (s : Store) (id : ListId) (items : List Value) : Store :=
  { s with lists := s.lists.setIfInBounds id.index items.toArray }

/-- Puts a value behind the others of a list. -/
def push (s : Store) (id : ListId) (v : Value) : Store :=
  { s with lists := s.lists.modify id.index (·.push v) }

/-- A number that was not handed out before. -/
def newNumber (s : Store) : Nat × Store :=
  (s.nextNumber, { s with nextNumber := s.nextNumber + 1 })

/-- A value with a number of its own. -/
def newValue (s : Store) (value : Nat → Value) : Value × Store :=
  let (id, s) := s.newNumber
  (value id, s)

/-- An integer that was read or computed. -/
def newInt (s : Store) (n : Int) : Value × Store :=
  if isSharedInt n then (.int 0 n, s) else s.newValue (.int · n)

/-- A text that was read or cut out. -/
def newText (s : Store) (text : String) : Value × Store :=
  if isSharedText text then (.text 0 text, s) else s.newValue (.text · text)

/-- A text that was put together character by character: only the empty one is
there already. -/
def newSpelling (s : Store) (text : String) : Value × Store :=
  if text = "" then (.text 0 text, s) else s.newValue (.text · text)

/-- A tuple. -/
def newTuple (s : Store) (items : List Value) : Value × Store :=
  if items.isEmpty then (.tuple 0 [], s) else s.newValue (.tuple · items)

@[simp] theorem contents_newList (s : Store) (items : List Value) :
    (s.newList items).2.contents (s.newList items).1 = items := by
  simp [newList, contents]

theorem contents_newList_of_lt (s : Store) (items : List Value) (id : ListId)
    (h : id.index < s.lists.size) : (s.newList items).2.contents id = s.contents id := by
  simp [newList, contents, Array.getElem?_push, Nat.ne_of_lt h]

theorem contents_setContents (s : Store) (id : ListId) (items : List Value)
    (h : id.index < s.lists.size) : (s.setContents id items).contents id = items := by
  simp [setContents, contents, h]

theorem contents_setContents_of_ne (s : Store) (id other : ListId) (items : List Value)
    (h : other ≠ id) : (s.setContents id items).contents other = s.contents other := by
  have : id.index ≠ other.index := fun e => h (by cases id; cases other; simp_all)
  simp [setContents, contents, this]

theorem size_eq (s : Store) (id : ListId) : s.size id = (s.contents id).length := by
  simp [size, contents]

theorem item?_eq (s : Store) (id : ListId) (place : Nat) :
    s.item? id place = (s.contents id)[place]? := by
  simp [item?, contents]

theorem contents_push (s : Store) (id : ListId) (v : Value) (h : id.index < s.lists.size) :
    (s.push id v).contents id = s.contents id ++ [v] := by
  simp [push, contents, h, Array.getElem_modify]

end Store

end Stencil
