/-!
# Tables

A table binds names to things and keeps the names in the order in which they
were first bound. Scopes, builtins, caches and the mappings of loaders are
tables. What is bound to a name is all that look-up sees: `get?_set_self` and
`get?_set_of_ne` say what binding does to it.
-/

namespace Stencil

/-- Names with what they are bound to, each name once. -/
abbrev Table (α : Type) := List (String × α)

namespace Table

variable {α : Type}

/-- What a name is bound to. -/
def get? (name : String) : Table α → Option α
  | [] => none
  | (n, a) :: rest => if n = name then some a else get? name rest

/-- Binds a name, in its place if it is bound already. -/
def set (name : String) (a : α) : Table α → Table α
  | [] => [(name, a)]
  | (n, b) :: rest => if n = name then (n, a) :: rest else (n, b) :: set name a rest

/-- Frees a name. -/
def erase (name : String) (t : Table α) : Table α := t.filter fun (n, _) => n != name

/-- Whether a name is bound. -/
def has (name : String) (t : Table α) : Bool := (get? name t).isSome

/-- The names. -/
def names (t : Table α) : List String := t.map (·.1)

/-- Binds several names. -/
def update (t : Table α) (bindings : List (String × α)) : Table α :=
  bindings.foldl (fun t (n, a) => set n a t) t

/-- A table of bindings; later ones win. -/
def ofList (bindings : List (String × α)) : Table α := update [] bindings

@[simp] theorem get?_nil (name : String) : get? name ([] : Table α) = none := rfl

@[simp] theorem get?_set_self (name : String) (a : α) (t : Table α) :
    get? name (set name a t) = some a := by
  induction t with
  | nil => simp [set, get?]
  | cons b rest ih =>
    obtain ⟨n, b⟩ := b
    by_cases h : n = name <;> simp [set, get?, h, ih]

theorem get?_set_of_ne {name other : String} (h : other ≠ name) (a : α) (t : Table α) :
    get? other (set name a t) = get? other t := by
  induction t with
  | nil => simp [set, get?, Ne.symm h]
  | cons b rest ih =>
    obtain ⟨n, b⟩ := b
    by_cases hn : n = name
    · subst hn; simp [set, get?, Ne.symm h]
    · by_cases ho : n = other
      · subst ho; simp [set, get?, hn]
      · simp [set, get?, hn, ho, ih]

@[simp] theorem get?_erase_self (name : String) (t : Table α) :
    get? name (erase name t) = none := by
  induction t with
  | nil => rfl
  | cons b rest ih =>
    obtain ⟨n, b⟩ := b
    by_cases h : n = name
    · simpa [erase, h] using ih
    · have : get? name (erase name ((n, b) :: rest)) = get? name (erase name rest) := by
        simp [erase, h, get?]
      rw [this, ih]

theorem get?_erase_of_ne {name other : String} (h : other ≠ name) (t : Table α) :
    get? other (erase name t) = get? other t := by
  induction t with
  | nil => rfl
  | cons b rest ih =>
    obtain ⟨n, b⟩ := b
    by_cases hn : n = name
    · subst hn
      simpa [erase, get?, Ne.symm h] using ih
    · have : erase name ((n, b) :: rest) = (n, b) :: erase name rest := by simp [erase, hn]
      rw [this, get?, get?, ih]

end Table

/-- Names in the order of their code points. -/
def sortedNames (names : List String) : List String :=
  names.mergeSort fun a b => !(b < a)

end Stencil
