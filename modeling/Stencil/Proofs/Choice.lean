import Mathlib.Tactic.SplitIfs
import Stencil.Loader
import Stencil.Proofs.Run

/-!
# Choices of loaders

A choice asks its members in order and notes, for each path that it gives, the member that gave it
first. From then on the text at that path is asked of this member, whatever the members answer from
by then (`choice_load`). A member that gives the same path later is not noted: its text is not what
the choice loads (`not_choice_load_of_resolves`).
-/

namespace Stencil

variable {i : Nat} {members : List Loader}

/-! ## The first member that gives a path -/

/-- A loader that gives no path for a name: it does not find it, or the path is empty. What it
answered from, and what it leaves behind. -/
inductive Loader.PassesOver (span : Option Span) (name : String) (loader : Loader) (l l' : Library) : Prop
  | noPath : loader.resolve span name l = .ok none l' → loader.PassesOver span name l l'
  | emptyPath : loader.resolve span name l = .ok (some "") l' → loader.PassesOver span name l l'
  | notFound {x : Failure} : x.isNotFound = true → loader.resolve span name l = .error x l' →
      loader.PassesOver span name l l'

/-- The first of several loaders that gives a path for a name, by its place. -/
inductive Loader.Resolves (span : Option Span) (name : String) :
    List Loader → Library → Nat → String → Library → Prop
  | here {loader : Loader} {rest : List Loader} {l l' : Library} {path : String} : path ≠ "" →
      loader.resolve span name l = .ok (some path) l' →
      Loader.Resolves span name (loader :: rest) l 0 path l'
  | behind {loader : Loader} {rest : List Loader} {l l' l'' : Library} {n : Nat} {path : String} :
      loader.PassesOver span name l l' → Loader.Resolves span name rest l' n path l'' →
      Loader.Resolves span name (loader :: rest) l (n + 1) path l''

namespace Loader

variable {span : Option Span} {name : String}

theorem resolveFirst_cons (n : Nat) (loader : Loader) (rest : List Loader) (l : Library) :
    resolveFirst span name n (loader :: rest) l = match loader.resolve span name l with
      | .ok (some path) l =>
        if path = "" then resolveFirst span name (n + 1) rest l else .ok (some (n, path)) l
      | .ok none l => resolveFirst span name (n + 1) rest l
      | .error e l =>
        if e.isNotFound then resolveFirst span name (n + 1) rest l else .error e l :=
  congrFun (resolveFirst.eq_2 span name n loader rest) l

theorem PassesOver.resolveFirst {loader : Loader} {l l' : Library}
    (h : loader.PassesOver span name l l') (n : Nat) (rest : List Loader) :
    resolveFirst span name n (loader :: rest) l = resolveFirst span name (n + 1) rest l' := by
  rw [resolveFirst_cons]
  cases h with
  | noPath h => rw [h]
  | emptyPath h =>
    rw [h]
    exact if_pos rfl
  | notFound hx h =>
    rw [h]
    exact if_pos hx

/-- What a loader does with a name: it passes it over, gives a path, or fails. -/
theorem resolve_cases (span : Option Span) (name : String) (loader : Loader) (l : Library) :
    ∃ l', after (loader.resolve span name) l = l' ∧
      (loader.PassesOver span name l l' ∨
        (∃ path, path ≠ "" ∧ loader.resolve span name l = .ok (some path) l') ∨
        ∃ x, x.isNotFound = false ∧ loader.resolve span name l = .error x l') := by
  cases h : loader.resolve span name l with
  | ok path l' =>
    refine ⟨l', after_of_ok h, ?_⟩
    cases path with
    | none => exact .inl (.noPath h)
    | some path =>
      by_cases he : path = ""
      · exact .inl (.emptyPath (he ▸ h))
      · exact .inr (.inl ⟨path, he, rfl⟩)
  | error x l' =>
    refine ⟨l', after_of_error h, ?_⟩
    cases hx : x.isNotFound with
    | true => exact .inl (.notFound hx h)
    | false => exact .inr (.inr ⟨x, hx, rfl⟩)

theorem resolveFirst_of_ok {loader : Loader} {l l' : Library} {path : String} (hp : path ≠ "")
    (h : loader.resolve span name l = .ok (some path) l') (n : Nat) (rest : List Loader) :
    resolveFirst span name n (loader :: rest) l = .ok (some (n, path)) l' := by
  rw [resolveFirst_cons, h]
  exact if_neg hp

theorem resolveFirst_of_error {loader : Loader} {l l' : Library} {x : Failure}
    (hx : x.isNotFound = false) (h : loader.resolve span name l = .error x l') (n : Nat)
    (rest : List Loader) : resolveFirst span name n (loader :: rest) l = .error x l' := by
  rw [resolveFirst_cons, h]
  exact if_neg (by rw [hx]; exact Bool.false_ne_true)

theorem Resolves.resolveFirst {loaders : List Loader} {l l' : Library} {n : Nat} {path : String}
    (h : Resolves span name loaders l n path l') (k : Nat) :
    resolveFirst span name k loaders l = .ok (some (k + n, path)) l' := by
  induction h generalizing k with
  | here hp h => exact resolveFirst_of_ok hp h k _
  | behind hover _ ih => rw [hover.resolveFirst, ih, Nat.add_right_comm, Nat.add_assoc]

theorem resolves_of_resolveFirst {loaders : List Loader} {k m : Nat} {l l' : Library} {path : String}
    (h : resolveFirst span name k loaders l = .ok (some (m, path)) l') :
    ∃ n, m = k + n ∧ Resolves span name loaders l n path l' := by
  induction loaders generalizing k l with
  | nil =>
    rw [resolveFirst] at h
    cases h
  | cons loader rest ih =>
    obtain ⟨u, -, hover | ⟨given, hp, hok⟩ | ⟨x, hx, herror⟩⟩ := resolve_cases span name loader l
    · rw [hover.resolveFirst] at h
      obtain ⟨n, rfl, hrest⟩ := ih h
      exact ⟨n + 1, by omega, .behind hover hrest⟩
    · rw [resolveFirst_of_ok hp hok] at h
      cases h
      exact ⟨0, rfl, .here hp hok⟩
    · rw [resolveFirst_of_error hx herror] at h
      cases h

theorem Resolves.member {loaders : List Loader} {l l' : Library} {n : Nat} {path : String}
    (h : Resolves span name loaders l n path l') : n < loaders.length := by
  induction h with
  | here _ _ => exact Nat.succ_pos _
  | behind _ _ ih => exact Nat.succ_lt_succ ih

theorem loadAt_eq (path : String) (n : Nat) {loaders : List Loader} (h : n < loaders.length) :
    loadAt span path n loaders = load span path loaders[n] := by
  induction loaders generalizing n with
  | nil => exact absurd h (Nat.not_lt_zero n)
  | cons loader rest ih =>
    cases n with
    | zero => rfl
    | succ n => exact ih n (Nat.lt_of_succ_lt_succ h)

end Loader

/-! ## Cells that are left alone -/

mutual

/-- The cells that a loader answers from or notes something in. -/
def Loader.cells : Loader → List Nat
  | .mapping i | .function i | .recording i => [i]
  | .files _ _ => []
  | .choice i members => i :: Loader.cellsOf members

/-- The cells of several loaders. -/
def Loader.cellsOf : List Loader → List Nat
  | [] => []
  | loader :: rest => loader.cells ++ Loader.cellsOf rest

end

/-- A cell is there as it was. -/
def Library.Keeps (i : Nat) (l l' : Library) : Prop := l'.cells[i]? = l.cells[i]?

theorem sequential_keeps (i : Nat) : Sequential (Library.Keeps i) where
  refl _ := rfl
  trans h k := Eq.trans k h

theorem Library.changeCell_keeps {j : Nat} (h : i ≠ j) (l : Library) (f : LoaderCell → LoaderCell) :
    l.Keeps i (l.changeCell j f) := by
  unfold Library.Keeps Library.changeCell
  rw [Array.getElem?_modify, if_neg h.symm]

theorem Library.Keeps.cell {l l' : Library} (h : l.Keeps i l') : l'.cell i = l.cell i := by
  unfold Library.cell
  rw [h]

theorem Library.Keeps.size {l l' : Library} (h : l.Keeps i l') (hl : i < l.cells.size) :
    i < l'.cells.size := by
  have hsome : l'.cells[i]? = some l.cells[i] := Eq.trans h (Array.getElem?_eq_getElem hl)
  exact (Array.getElem?_eq_some_iff.mp hsome).1

namespace Loader

theorem get_keeps {α : Type} {k : Library → Lookup α}
    (h : ∀ l, Moves (Library.Keeps i) (k l)) : Moves (Library.Keeps i) (do k (← get)) :=
  (sequential_keeps i).bind (sequential_keeps i).get h

theorem cell_keeps {α : Type} (j : Nat) {k : LoaderCell → Lookup α}
    (h : ∀ c, Moves (Library.Keeps i) (k c)) : Moves (Library.Keeps i) (Lookup.cell j >>= k) :=
  (sequential_keeps i).bind (get_keeps fun _ => (sequential_keeps i).pure _) h

theorem note_keeps {j : Nat} (h : i ≠ j) (call : LoaderCall) :
    Moves (Library.Keeps i) (Lookup.note j call) := fun l => l.changeCell_keeps h _

theorem notFound_keeps {α : Type} (reason : NotFound) (span : Option Span) :
    Moves (Library.Keeps i) (Lookup.notFound reason span : Lookup α) := (sequential_keeps i).throw _

mutual

theorem resolve_keeps (span : Option Span) (name : String) :
    ∀ loader : Loader, i ∉ loader.cells → Moves (Library.Keeps i) (loader.resolve span name)
  | .mapping j, _ => by
    unfold Loader.resolve
    refine cell_keeps j fun c => ?_
    dsimp only
    split
    · exact (sequential_keeps i).pure _
    · exact notFound_keeps _ _
  | .function _, _ => (sequential_keeps i).pure _
  | .recording j, h => by
    unfold Loader.resolve
    refine (sequential_keeps i).bind (note_keeps (List.ne_of_not_mem_cons h) _) fun _ => ?_
    exact cell_keeps j fun _ => (sequential_keeps i).pure _
  | .files roots _, _ => by
    unfold Loader.resolve
    have hfind : Moves (Library.Keeps i) (do
        match findFile (← MonadState.get).tree name roots with
        | .error e => throw (.fault e)
        | .ok (some p) => return some p.text
        | .ok none => Lookup.notFound (.directories name (roots.map FilePath.text)) span :
          Lookup (Option String)) := by
      refine get_keeps fun l => ?_
      split
      · exact (sequential_keeps i).throw _
      · exact (sequential_keeps i).pure _
      · exact notFound_keeps _ _
    split
    · exact (sequential_keeps i).throw _
    · exact hfind
  | .choice j members, h => by
    unfold Loader.resolve
    refine (sequential_keeps i).bind
      (resolveFirst_keeps span name 0 members (List.not_mem_of_not_mem_cons h)) fun found => ?_
    cases found with
    | none => exact notFound_keeps _ _
    | some found =>
      refine (sequential_keeps i).bind (fun l => ?_) fun _ => (sequential_keeps i).pure _
      exact l.changeCell_keeps (List.ne_of_not_mem_cons h) _

theorem resolveFirst_keeps (span : Option Span) (name : String) : ∀ (n : Nat) (loaders : List Loader),
    i ∉ cellsOf loaders → Moves (Library.Keeps i) (resolveFirst span name n loaders)
  | _, [], _ => (sequential_keeps i).pure _
  | n, loader :: rest, h => by
    have hcells : i ∉ loader.cells ∧ i ∉ cellsOf rest := by
      rwa [cellsOf, List.mem_append, not_or] at h
    intro l
    obtain ⟨u, hu, hanswer⟩ := resolve_cases span name loader l
    have hfirst := resolve_keeps span name loader hcells.1 l
    rw [hu] at hfirst
    rcases hanswer with hover | ⟨path, hp, hok⟩ | ⟨x, hx, herror⟩
    · rw [after, hover.resolveFirst]
      exact (sequential_keeps i).trans hfirst (resolveFirst_keeps span name (n + 1) rest hcells.2 u)
    · rwa [after_of_ok (resolveFirst_of_ok hp hok n rest)]
    · rwa [after_of_error (resolveFirst_of_error hx herror n rest)]

end

mutual

theorem load_keeps (span : Option Span) (path : String) :
    ∀ loader : Loader, i ∉ loader.cells → Moves (Library.Keeps i) (loader.load span path)
  | .mapping j, _ => cell_keeps j fun _ => (sequential_keeps i).pure _
  | .function j, _ => cell_keeps j fun _ => (sequential_keeps i).pure _
  | .recording j, h => by
    unfold Loader.load
    refine (sequential_keeps i).bind (note_keeps (List.ne_of_not_mem_cons h) _) fun _ => ?_
    exact cell_keeps j fun _ => (sequential_keeps i).pure _
  | .files _ encoding, _ => by
    unfold Loader.load
    refine get_keeps fun l => ?_
    split
    · exact (sequential_keeps i).pure _
    · exact (sequential_keeps i).throw _
  | .choice j members, h => by
    have hmembers := List.not_mem_of_not_mem_cons h
    unfold Loader.load
    refine cell_keeps j fun c => ?_
    split
    · exact loadAt_keeps span path _ members hmembers
    · exact loadFirst_keeps span path members hmembers

theorem loadAt_keeps (span : Option Span) (path : String) : ∀ (n : Nat) (loaders : List Loader),
    i ∉ cellsOf loaders → Moves (Library.Keeps i) (loadAt span path n loaders)
  | _, [], _ => (sequential_keeps i).pure _
  | 0, loader :: rest, h => by
    rw [cellsOf, List.mem_append, not_or] at h
    exact load_keeps span path loader h.1
  | n + 1, loader :: rest, h => by
    rw [cellsOf, List.mem_append, not_or] at h
    exact loadAt_keeps span path n rest h.2

theorem loadFirst_keeps (span : Option Span) (path : String) : ∀ loaders : List Loader,
    i ∉ cellsOf loaders → Moves (Library.Keeps i) (loadFirst span path loaders)
  | [], _ => (sequential_keeps i).pure _
  | loader :: rest, h => by
    rw [cellsOf, List.mem_append, not_or] at h
    refine (sequential_keeps i).bind (load_keeps span path loader h.1) fun text => ?_
    cases text with
    | none => exact loadFirst_keeps span path rest h.2
    | some text => exact (sequential_keeps i).pure _

end

end Loader

/-! ## The record of a choice -/

/-- A library in which a choice has noted which of its members gave a path, unless one has before. -/
def Library.noting (l : Library) (i : Nat) (path : String) (n : Nat) : Library :=
  l.changeCell i fun c => if c.owners.has path then c else { c with owners := c.owners.set path n }

theorem Loader.Resolves.choice {span : Option Span} {name path : String} {l u : Library} {n : Nat}
    (h : Resolves span name members l n path u) :
    (Loader.choice i members).resolve span name l = .ok (some path) (u.noting i path n) := by
  have hfirst := h.resolveFirst 0
  rw [Nat.zero_add] at hfirst
  unfold Loader.resolve
  rw [bind_of_ok hfirst]
  rfl

theorem Library.size_noting (l : Library) (path : String) (n : Nat) :
    (l.noting i path n).cells.size = l.cells.size := Array.size_modify

theorem Library.owners_noting {l : Library} (hi : i < l.cells.size) (path : String) (n : Nat)
    (asked : String) : ((l.noting i path n).cell i).owners.get? asked =
      ((l.cell i).owners.get? asked).or (if asked = path then some n else none) := by
  have hcell (c : LoaderCell) :
      (if c.owners.has path then c else { c with owners := c.owners.set path n }).owners.get? asked =
        (c.owners.get? asked).or (if asked = path then some n else none) := by
    split_ifs with hhas ha ha
    · subst ha
      obtain ⟨m, hm⟩ := Option.isSome_iff_exists.mp hhas
      rw [hm, Option.some_or]
    · rw [Option.or_none]
    · subst ha
      rw [Table.get?_set_self, Option.not_isSome_iff_eq_none.mp hhas, Option.none_or]
    · rw [Table.get?_set_of_ne ha, Option.or_none]
  simp only [Library.noting, Library.cell, Library.changeCell, Array.getElem?_modify, if_true,
    Array.getElem?_eq_getElem hi, Option.map_some, Option.getD_some]
  exact hcell _

/-- What may have happened to a choice since it was made, with the paths that it gave, each with the
place of the member that it was from. In between, everything but the record of the choice may
change. -/
inductive Loader.Chosen (i : Nat) (members : List Loader) : Library → List (String × Nat) → Prop
  | made {l : Library} : i < l.cells.size → (l.cell i).owners = [] → Loader.Chosen i members l []
  | changed {l l' : Library} {given : List (String × Nat)} : Loader.Chosen i members l given →
      i < l'.cells.size → (l'.cell i).owners = (l.cell i).owners → Loader.Chosen i members l' given
  | resolved {l u l' : Library} {given : List (String × Nat)} {span : Option Span} {name path : String}
      {n : Nat} : Loader.Chosen i members l given → Loader.Resolves span name members l n path u →
      (Loader.choice i members).resolve span name l = .ok (some path) l' →
      Loader.Chosen i members l' (given ++ [(path, n)])
  | unresolved {l l' : Library} {given : List (String × Nat)} {span : Option Span} {name : String}
      {x : Failure} : Loader.Chosen i members l given →
      (Loader.choice i members).resolve span name l = .error x l' → Loader.Chosen i members l' given
  | loaded {l : Library} {given : List (String × Nat)} (span : Option Span) (path : String) :
      Loader.Chosen i members l given →
      Loader.Chosen i members (after ((Loader.choice i members).load span path) l) given

namespace Loader

variable {l l' : Library} {given : List (String × Nat)} {span : Option Span} {name path : String}

/-- What a choice does with a name: it gives a path because a member is the first to give it, or
fails. Then nothing is noted. -/
theorem choice_cases (i : Nat) (members : List Loader) (span : Option Span) (name : String)
    (l : Library) :
    (∃ n path u, Resolves span name members l n path u ∧
      (choice i members).resolve span name l = .ok (some path) (u.noting i path n)) ∨
    ∃ x, (choice i members).resolve span name l =
      .error x (after (resolveFirst span name 0 members) l) := by
  cases h : resolveFirst span name 0 members l with
  | error x u =>
    refine .inr ⟨x, ?_⟩
    unfold resolve
    rw [bind_of_error h, after_of_error h]
  | ok found u =>
    cases found with
    | none =>
      refine .inr ⟨.script ⟨.notFound (.choices name members.length), span⟩, ?_⟩
      unfold resolve
      rw [bind_of_ok h, after_of_ok h]
      rfl
    | some found =>
      obtain ⟨n, -, hn⟩ := resolves_of_resolveFirst h
      exact .inl ⟨n, found.2, u, hn, hn.choice⟩

/-- What a choice loads from: the member that it noted, or else the first one that has a text. -/
theorem load_choice (span : Option Span) (path : String) (l : Library) :
    (choice i members).load span path l = match (l.cell i).owners.get? path with
      | some n => loadAt span path n members l
      | none => loadFirst span path members l := by
  unfold load
  rw [Lookup.cell, bind_assoc, bind_of_ok (get_run l), pure_bind]
  cases (l.cell i).owners.get? path <;> rfl

/-- What a choice has noted: of each path that it gave, the member that gave it first. -/
structure Noted (i : Nat) (members : List Loader) (l : Library) (given : List (String × Nat)) : Prop where
  size : i < l.cells.size
  owners (path : String) : (l.cell i).owners.get? path = given.lookup path
  places {entry : String × Nat} : entry ∈ given → entry.2 < members.length

namespace Noted

variable (h : Noted i members l given)

include h

theorem of_keeps (hl : l.Keeps i l') : Noted i members l' given where
  size := hl.size h.size
  owners path := by rw [hl.cell, h.owners]
  places := h.places

theorem noting {n : Nat} (hn : n < members.length) (path : String) :
    Noted i members (l.noting i path n) (given ++ [(path, n)]) where
  size := (l.size_noting path n).symm ▸ h.size
  owners asked := by
    rw [Library.owners_noting h.size, h.owners, List.lookup_append, List.lookup_cons, List.lookup_nil]
    by_cases ha : asked = path
    · rw [if_pos ha, beq_iff_eq.mpr ha]
    · rw [if_neg ha, beq_false_of_ne ha]
  places {entry} hentry := by
    rcases List.mem_append.mp hentry with hentry | hentry
    · exact h.places hentry
    · rwa [List.mem_singleton.mp hentry]

theorem member {n : Nat} (hn : given.lookup path = some n) : n < members.length := by
  obtain ⟨before, behind, rfl, -⟩ := List.lookup_eq_some_iff.mp hn
  exact h.places (List.mem_append_right before List.mem_cons_self)

end Noted

theorem Chosen.noted (hown : i ∉ cellsOf members) (h : Chosen i members l given) :
    Noted i members l given := by
  induction h with
  | made hi ho => exact ⟨hi, fun path => by rw [ho]; rfl, nofun⟩
  | changed _ hi ho ih => exact ⟨hi, fun path => by rw [ho, ih.owners], ih.places⟩
  | @resolved l u _ _ span name path n _ hn hres ih =>
    rw [hn.choice] at hres
    cases hres
    have hkeeps := resolveFirst_keeps span name 0 members hown l
    rw [after_of_ok (hn.resolveFirst 0)] at hkeeps
    exact (ih.of_keeps hkeeps).noting hn.member path
  | @unresolved l _ _ span name _ _ hres ih =>
    refine ih.of_keeps ?_
    obtain ⟨_, _, _, -, hok⟩ | ⟨_, herror⟩ := choice_cases i members span name l
    · rw [hok] at hres
      cases hres
    · rw [herror] at hres
      cases hres
      exact resolveFirst_keeps span name 0 members hown l
  | @loaded l _ span path _ ih =>
    refine ih.of_keeps ?_
    rw [after, load_choice]
    cases (l.cell i).owners.get? path with
    | some n => exact loadAt_keeps span path n members hown l
    | none => exact loadFirst_keeps span path members hown l

end Loader

open Loader

/-- A choice loads the text at a path as the member does that was the first to give this path to it,
whatever has happened since; a path that it never gave it asks of its members in order. So after a
member has given a path, the text is that of this member, unless another one gave the path before. -/
theorem choice_load {l : Library} {given : List (String × Nat)} (hown : i ∉ Loader.cellsOf members)
    (h : Chosen i members l given) :
    (∀ span path n, given.lookup path = some n → ∃ member, members[n]? = some member ∧
      (choice i members).load span path l = member.load span path l) ∧
    (∀ span path, given.lookup path = none →
      (choice i members).load span path l = loadFirst span path members l) ∧
    ∀ span name n path u, Resolves span name members l n path u →
      ∃ member l', members[n]? = some member ∧
        (choice i members).resolve span name l = .ok (some path) l' ∧
        Chosen i members l' (given ++ [(path, n)]) ∧
        ((∀ k, given.lookup path = some k → k = n) → ∀ span,
          (choice i members).load span path l' = member.load span path l') := by
  have hload {l : Library} {given : List (String × Nat)} (h : Chosen i members l given)
      (span : Option Span) {path : String} {n : Nat} (hn : given.lookup path = some n) :
      ∃ member, members[n]? = some member ∧
        (choice i members).load span path l = member.load span path l := by
    have hnoted := h.noted hown
    have hlt := hnoted.member hn
    refine ⟨members[n], List.getElem?_eq_getElem hlt, ?_⟩
    rw [load_choice, hnoted.owners, hn]
    exact congrFun (loadAt_eq path n hlt) l
  refine ⟨fun span path n => hload h span, fun span path hn => ?_, fun span name n path u hres => ?_⟩
  · rw [load_choice, (h.noted hown).owners, hn]
  · have hmember := List.getElem?_eq_getElem hres.member
    have hchosen := h.resolved hres hres.choice
    refine ⟨_, _, hmember, hres.choice, hchosen, fun hfirst span => ?_⟩
    have hlookup : (given ++ [(path, n)]).lookup path = some n := by
      rw [List.lookup_append, List.lookup_cons_self]
      cases hk : given.lookup path with
      | none => rfl
      | some k => rw [hfirst k hk, Option.some_or]
    obtain ⟨member, hm, hsame⟩ := hload hchosen span hlookup
    rw [hmember] at hm
    cases hm
    exact hsame

/-- What two mappings hold, with a choice of them that has given nothing yet. -/
def Library.ofTwo (first second : Table (Option String)) : Library :=
  { cells := #[{ texts := first }, { texts := second }, {}] }

/-- A choice of two mappings that has given a name from the second one. Then the first one has it. -/
def Library.shadowed (first second : Table (Option String)) (name : String) : Library :=
  ((Library.ofTwo first second).noting 2 name 1).changeCell 0 fun c =>
    { c with texts := (name, some "project") :: c.texts }

theorem Loader.Chosen.shadowed :
    Chosen 2 [.mapping 0, .mapping 1] (Library.shadowed [("b", some "other")] [("a", some "library")] "a")
      [("a", 1)] := by
  have hfirst : Resolves none "a" [.mapping 0, .mapping 1]
      (Library.ofTwo [("b", some "other")] [("a", some "library")]) 1 "a" _ :=
    .behind (.notFound rfl rfl) (.here (by decide) rfl)
  exact .changed (.resolved (.made (by decide) rfl) hfirst hfirst.choice) (by decide) rfl

/-- After the first of two mappings has got a name that the choice had from the second one, the choice
loads it from the second one; a name that it had from neither it loads from where it gets it. -/
theorem choice_load_shadowed :
    let members : List Loader := [.mapping 0, .mapping 1]
    let l := Library.shadowed [("b", some "other")] [("a", some "library")] "a"
    (2 ∉ Loader.cellsOf members ∧ Chosen 2 members l [("a", 1)] ∧
      List.lookup "a" [("a", 1)] = some 1 ∧ Resolves none "b" members l 0 "b" l) ∧
    (∃ member, members[1]? = some member ∧
      (choice 2 members).load none "a" l = member.load none "a" l) ∧
    ∃ member l', members[0]? = some member ∧
      (choice 2 members).resolve none "b" l = .ok (some "b") l' ∧
      Chosen 2 members l' [("a", 1), ("b", 0)] ∧
      ∀ span, (choice 2 members).load span "b" l' = member.load span "b" l' := by
  intro members l
  have hown : 2 ∉ Loader.cellsOf members := by decide
  have hb : Resolves none "b" members l 0 "b" l := .here (by decide) rfl
  obtain ⟨hgiven, -, hresolved⟩ := choice_load hown Chosen.shadowed
  obtain ⟨member, l', hmember, hres, hchosen, hsame⟩ := hresolved none "b" 0 "b" l hb
  exact ⟨⟨hown, Chosen.shadowed, rfl, hb⟩, hgiven none "a" 1 rfl, member, l', hmember, hres, hchosen,
    hsame nofun⟩

/-- A choice does not always load a path from the member that it has just had it from. -/
theorem not_choice_load_of_resolves :
    ¬ ∀ (i : Nat) (members : List Loader) (l : Library) (given : List (String × Nat)),
      i ∉ Loader.cellsOf members → Chosen i members l given →
      ∀ span name n path u l', Resolves span name members l n path u →
        (choice i members).resolve span name l = .ok (some path) l' →
        ∀ member, members[n]? = some member →
          (choice i members).load span path l' = member.load span path l' := by
  intro h
  have ha : Resolves none "a" [.mapping 0, .mapping 1]
      (Library.shadowed [("b", some "other")] [("a", some "library")] "a") 0 "a" _ :=
    .here (by decide) rfl
  have hload := h 2 _ _ _ (by decide) Chosen.shadowed none "a" 0 "a" _ _ ha ha.choice _ rfl
  have hlibrary : (Loader.choice 2 [.mapping 0, .mapping 1]).load none "a" (Library.noting
      (Library.shadowed [("b", some "other")] [("a", some "library")] "a") 2 "a" 0) =
      .ok (some "library") _ := rfl
  have hproject : (Loader.mapping 0).load none "a" (Library.noting
      (Library.shadowed [("b", some "other")] [("a", some "library")] "a") 2 "a" 0) =
      .ok (some "project") _ := rfl
  rw [hlibrary, hproject] at hload
  injection hload with htext
  exact absurd htext (by decide)

end Stencil
