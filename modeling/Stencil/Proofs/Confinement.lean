import Mathlib.Data.List.Basic
import Stencil.Loader
import Stencil.Proofs.Run

/-!
# Where files are found

A loader of files looks for a name under its directories in turn and gives the path of the first file
that it comes to without leaving the directory (`files_resolve`). The path is normal, so that it is
found again under itself, and two names that mean the same under every directory have the same path.
A name that is too long for a file ends the search.
-/

namespace Stencil

/-! ## Normal paths -/

namespace FilePath

/-- A path whose parts are the names of directories and files: where it leads needs no reading. -/
def IsNormal (p : FilePath) : Prop :=
  ∀ part ∈ p, part ≠ "" ∧ part ≠ "." ∧ part ≠ ".." ∧ '/' ∉ part.toList ∧ '\x00' ∉ part.toList

instance : DecidablePred IsNormal := fun p => inferInstanceAs (Decidable (∀ part ∈ p, _))

theorem go_of_ne {c : Char} (h : c ≠ '/') (cs part : List Char) :
    parts.go (c :: cs) part = parts.go cs (c :: part) := by
  rw [parts.go]
  exact h

/-- A part holds characters of the name, and no slash. -/
theorem of_mem_go {cs part x : List Char} (hx : x ∈ parts.go cs part) {c : Char} (hc : c ∈ x) :
    c ∈ part ∨ c ∈ cs ∧ c ≠ '/' := by
  induction cs generalizing part with
  | nil =>
    rw [parts.go, List.mem_singleton] at hx
    exact .inl (List.mem_reverse.mp (hx ▸ hc))
  | cons d cs ih =>
    by_cases hd : d = '/'
    · subst hd
      rw [parts.go] at hx
      rcases List.mem_cons.mp hx with rfl | hx
      · exact .inl (List.mem_reverse.mp hc)
      · obtain h | ⟨h, hne⟩ := ih hx
        · exact absurd h List.not_mem_nil
        · exact .inr ⟨List.mem_cons_of_mem _ h, hne⟩
    · rw [go_of_ne hd] at hx
      obtain h | ⟨h, hne⟩ := ih hx
      · rcases List.mem_cons.mp h with rfl | h
        · exact .inr ⟨List.mem_cons_self, hd⟩
        · exact .inl h
      · exact .inr ⟨List.mem_cons_of_mem _ h, hne⟩

/-- A character that is not a slash comes up in a part. -/
theorem exists_mem_go {cs : List Char} (part : List Char) {c : Char} (h : c ∈ part ∨ c ∈ cs)
    (hc : c ≠ '/') : ∃ x ∈ parts.go cs part, c ∈ x := by
  induction cs generalizing part with
  | nil => exact ⟨_, List.mem_singleton.mpr rfl, List.mem_reverse.mpr (h.resolve_right List.not_mem_nil)⟩
  | cons d cs ih =>
    by_cases hd : d = '/'
    · subst hd
      rw [parts.go]
      obtain h | h := h
      · exact ⟨_, List.mem_cons_self, List.mem_reverse.mpr h⟩
      · have hcs : c ∈ cs := (List.mem_cons.mp h).resolve_left hc
        obtain ⟨x, hx, hcx⟩ := ih [] (.inr hcs)
        exact ⟨x, List.mem_cons_of_mem _ hx, hcx⟩
    · rw [go_of_ne hd]
      refine ih _ ?_
      rcases h with h | h
      · exact .inl (List.mem_cons_of_mem _ h)
      · rcases List.mem_cons.mp h with rfl | h
        · exact .inl List.mem_cons_self
        · exact .inr h

theorem of_mem_parts {name part : String} (h : part ∈ parts name) {c : Char} (hc : c ∈ part.toList) :
    c ∈ name.toList ∧ c ≠ '/' := by
  obtain ⟨x, hx, rfl⟩ := List.mem_map.mp h
  rw [String.toList_ofList] at hc
  exact (of_mem_go hx hc).resolve_left List.not_mem_nil

theorem isNormal_step {p : FilePath} (hp : p.IsNormal) {part : String} (hslash : '/' ∉ part.toList)
    (hnull : '\x00' ∉ part.toList) : (p.step part).IsNormal := by
  unfold step
  split_ifs with hstay hup
  · exact hp
  · exact fun q hq => hp q ((List.dropLast_subset p) hq)
  · rw [Bool.or_eq_true, decide_eq_true_iff, decide_eq_true_iff, not_or] at hstay
    intro q hq
    rcases List.mem_append.mp hq with hq | hq
    · exact hp q hq
    · rw [List.mem_singleton.mp hq]
      exact ⟨hstay.1, hstay.2, hup, hslash, hnull⟩

/-- From a normal directory, every name leads to a normal path. -/
theorem isNormal_resolve {directory : FilePath} (hd : directory.IsNormal) {name : String}
    (hname : hasNull name = false) : (resolve directory name).IsNormal := by
  have hfold (names : List String) (hnames : ∀ part ∈ names, part ∈ parts name) {p : FilePath}
      (hp : p.IsNormal) : (names.foldl step p).IsNormal := by
    induction names generalizing p with
    | nil => exact hp
    | cons part names ih =>
      have hpart := hnames part List.mem_cons_self
      refine ih (fun q hq => hnames q (List.mem_cons_of_mem _ hq)) (isNormal_step hp ?_ ?_)
      · exact fun h => (of_mem_parts hpart h).2 rfl
      · intro h
        have hnull : hasNull name = true := List.contains_iff_mem.mpr (of_mem_parts hpart h).1
        rw [hname] at hnull
        cases hnull
  unfold resolve
  refine hfold _ (fun _ => id) ?_
  split
  · exact fun _ h => absurd h List.not_mem_nil
  · exact hd

theorem go_name {cs : List Char} (hcs : '/' ∉ cs) (part : List Char) :
    parts.go cs part = [part.reverse ++ cs] := by
  induction cs generalizing part with
  | nil => rw [parts.go, List.append_nil]
  | cons c cs ih =>
    rw [List.mem_cons, not_or] at hcs
    rw [go_of_ne (Ne.symm hcs.1), ih hcs.2, List.reverse_cons, List.append_assoc, List.singleton_append]

/-- A plain name is looked for right in the directory. -/
theorem resolve_name {name : String} (h : IsNormal [name]) (directory : FilePath) :
    resolve directory name = directory ++ [name] := by
  obtain ⟨hempty, hdot, hup, hslash, -⟩ := h name List.mem_cons_self
  have hhead : (name.toList.head? == some '/') = false := by
    refine beq_false_of_ne fun hhead => hslash ?_
    exact List.mem_of_head? hhead
  have hparts : parts name = [name] := by
    rw [parts, go_name hslash, List.reverse_nil, List.nil_append, List.map_singleton,
      String.ofList_toList]
  rw [resolve, hhead, hparts, List.foldl_cons, List.foldl_nil, if_neg Bool.false_ne_true, step, if_neg,
    if_neg hup]
  simp only [hempty, hdot, decide_false, Bool.or_self, Bool.false_eq_true, not_false_eq_true]

theorem hasNull_name {name : String} (h : IsNormal [name]) : hasNull name = false :=
  Bool.eq_false_iff.mpr fun hc => (h name List.mem_cons_self).2.2.2.2 (List.contains_iff_mem.mp hc)

theorem go_append {cs : List Char} (hcs : '/' ∉ cs) (rest part : List Char) :
    parts.go (cs ++ '/' :: rest) part = (part.reverse ++ cs) :: parts.go rest [] := by
  induction cs generalizing part with
  | nil => rw [List.nil_append, parts.go, List.append_nil]
  | cons c cs ih =>
    rw [List.mem_cons, not_or] at hcs
    rw [List.cons_append, go_of_ne (Ne.symm hcs.1), ih hcs.2, List.reverse_cons, List.append_assoc,
      List.singleton_append]

/-- The parts of names with slashes between them. -/
theorem go_intercalate {names : List (List Char)} (hne : names ≠ []) (h : ∀ cs ∈ names, '/' ∉ cs) :
    parts.go (['/'].intercalate names) [] = names := by
  induction names with
  | nil => exact absurd rfl hne
  | cons cs names ih =>
    have hcs := h cs List.mem_cons_self
    cases names with
    | nil => rw [List.intercalate_singleton, go_name hcs, List.reverse_nil, List.nil_append]
    | cons ds names =>
      rw [List.intercalate_cons_cons, List.append_assoc, List.singleton_append, go_append hcs,
        ih (List.cons_ne_nil _ _) fun x hx => h x (List.mem_cons_of_mem _ hx), List.reverse_nil,
        List.nil_append]

theorem toList_text (p : FilePath) :
    p.text.toList = '/' :: ['/'].intercalate (p.map String.toList) := by
  rw [text, String.toList_append, String.toList_intercalate]
  rfl

/-- The parts of a normal path, behind the slash in front. -/
theorem IsNormal.go_text {p : FilePath} (h : p.IsNormal) :
    parts.go p.text.toList [] = [] :: if p = [] then [[]] else p.map String.toList := by
  rw [toList_text, parts.go]
  split_ifs with hp
  · subst hp
    rfl
  · refine congrArg ([] :: ·) (go_intercalate (mt List.map_eq_nil_iff.mp hp) fun cs hcs => ?_)
    obtain ⟨part, hpart, rfl⟩ := List.mem_map.mp hcs
    exact (h part hpart).2.2.2.1

/-- Names of directories and files lead on from a directory as they are. -/
theorem foldl_step {names : List String} (h : ∀ part ∈ names, part ≠ "" ∧ part ≠ "." ∧ part ≠ "..")
    (d : FilePath) : names.foldl step d = d ++ names := by
  induction names generalizing d with
  | nil => exact (List.append_nil d).symm
  | cons part names ih =>
    obtain ⟨hempty, hdot, hup⟩ := h part List.mem_cons_self
    have he : d.step part = d ++ [part] := by
      rw [step, if_neg, if_neg hup]
      simp only [hempty, hdot, decide_false, Bool.or_self, Bool.false_eq_true, not_false_eq_true]
    rw [List.foldl_cons, he, ih (fun q hq => h q (List.mem_cons_of_mem _ hq)), List.append_assoc,
      List.singleton_append]

/-- A normal path is found under itself, from every directory. -/
theorem IsNormal.resolve_text {p : FilePath} (h : p.IsNormal) (directory : FilePath) :
    resolve directory p.text = p := by
  have hroot : (p.text.toList.head? == some '/') = true := by
    rw [toList_text]
    rfl
  rw [resolve, hroot, if_pos rfl, parts, h.go_text]
  split_ifs with hp
  · rw [hp]
    rfl
  · have hnames : (p.map String.toList).map String.ofList = p := by
      rw [List.map_map]
      exact List.map_id'' (fun _ => String.ofList_toList) p
    rw [List.map_cons, hnames]
    exact foldl_step (fun part hpart => ⟨(h part hpart).1, (h part hpart).2.1, (h part hpart).2.2.1⟩) []

theorem IsNormal.hasNull_text {p : FilePath} (h : p.IsNormal) : hasNull p.text = false := by
  refine Bool.eq_false_iff.mpr fun hnull => ?_
  obtain ⟨x, hx, hmem⟩ := exists_mem_go [] (.inr (List.contains_iff_mem.mp hnull)) (by decide)
  rw [h.go_text] at hx
  rcases List.mem_cons.mp hx with rfl | hx
  · cases hmem
  · split_ifs at hx with hp
    · rw [List.mem_singleton.mp hx] at hmem
      cases hmem
    · obtain ⟨part, hpart, rfl⟩ := List.mem_map.mp hx
      exact (h part hpart).2.2.2.2 hmem

end FilePath

/-! ## The search -/

/-- The first of several things of which something is true. -/
structure IsFirst {α : Type} (P : α → Prop) (as : List α) (i : Nat) (a : α) : Prop where
  at_place : as[i]? = some a
  holds : P a
  before {j : Nat} (hj : j < i) {b : α} : as[j]? = some b → ¬ P b

namespace FileTree

variable (t : FileTree) (name : String)

/-- A name leads to a file in a directory. -/
def Holds (root : FilePath) : Prop :=
  root <+: FilePath.resolve root name ∧ t.isFile (FilePath.resolve root name) = true

/-- A name leads to a path in a directory that is too long for a file. -/
def Chokes (root : FilePath) : Prop :=
  root <+: FilePath.resolve root name ∧ t.isTooLong (FilePath.resolve root name) = true

end FileTree

theorem IsFirst.head {α : Type} {P : α → Prop} {a : α} (h : P a) (as : List α) :
    IsFirst P (a :: as) 0 a := ⟨rfl, h, fun hj => absurd hj (Nat.not_lt_zero _)⟩

theorem IsFirst.cons {α : Type} {P : α → Prop} {as : List α} {i : Nat} {a b : α} (hb : ¬ P b)
    (h : IsFirst P as i a) : IsFirst P (b :: as) (i + 1) a where
  at_place := h.at_place
  holds := h.holds
  before {j} hj c hc := by
    cases j with
    | zero =>
      cases hc
      exact hb
    | succ j => exact h.before (Nat.lt_of_succ_lt_succ hj) hc

theorem isFirst_or_forall_not {α : Type} (P : α → Prop) (as : List α) :
    (∃ i a, IsFirst P as i a) ∨ ∀ a ∈ as, ¬ P a := by
  induction as with
  | nil => exact .inr fun _ h => absurd h List.not_mem_nil
  | cons a as ih =>
    by_cases ha : P a
    · exact .inl ⟨0, a, .head ha as⟩
    · obtain ⟨i, b, hb⟩ | h := ih
      · exact .inl ⟨i + 1, b, hb.cons ha⟩
      · exact .inr (List.forall_mem_cons.mpr ⟨ha, h⟩)

theorem IsFirst.cons_inv {α : Type} {P : α → Prop} {as : List α} {i : Nat} {a b : α}
    (h : IsFirst P (b :: as) (i + 1) a) : ¬ P b ∧ IsFirst P as i a :=
  ⟨h.before (Nat.succ_pos i) rfl, h.at_place, h.holds,
    fun hj _ => h.before (Nat.succ_lt_succ hj)⟩

/-- The first thing of which something else is true, if it is true of the same things up to there. -/
theorem IsFirst.congr {α : Type} {P Q : α → Prop} {as : List α} {i : Nat} {a : α} (h : IsFirst P as i a)
    (hsame : ∀ j ≤ i, ∀ b, as[j]? = some b → (Q b ↔ P b)) : IsFirst Q as i a where
  at_place := h.at_place
  holds := (hsame i (Nat.le_refl i) a h.at_place).mpr h.holds
  before hj b hb := fun hQ => h.before hj hb ((hsame _ (Nat.le_of_lt hj) b hb).mp hQ)

section Search

variable {t : FileTree} {name : String}

theorem isWithin_iff (root p : FilePath) : FilePath.isWithin root p = true ↔ root <+: p :=
  List.isPrefixOf_iff_prefix

/-- A directory in which a name leads to no file and to nothing too long is passed over. -/
theorem findFile_cons {root : FilePath} (h : ¬ (t.Holds name root ∨ t.Chokes name root))
    (roots : List FilePath) : findFile t name (root :: roots) = findFile t name roots := by
  rw [not_or] at h
  rw [findFile]
  split_ifs with hwithin hlong hfile
  · rfl
  · rw [Bool.not_eq_true', Bool.not_eq_false, isWithin_iff] at hwithin
    exact absurd ⟨hwithin, hlong⟩ h.2
  · rw [Bool.not_eq_true', Bool.not_eq_false, isWithin_iff] at hwithin
    exact absurd ⟨hwithin, hfile⟩ h.1
  · rfl

/-- The search ends at the first directory that holds a file of the name or in which the name is too
long. -/
theorem findFile_of_first {roots : List FilePath} {i : Nat} {root : FilePath}
    (h : IsFirst (fun root => t.Holds name root ∨ t.Chokes name root) roots i root) :
    findFile t name roots = if t.isTooLong (FilePath.resolve root name) then
      .error (.nameTooLong (FilePath.resolve root name).text)
    else .ok (some (FilePath.resolve root name)) := by
  induction roots generalizing i with
  | nil => cases h.at_place
  | cons other roots ih =>
    cases i with
    | succ i =>
      obtain ⟨hother, hrest⟩ := h.cons_inv
      rw [findFile_cons hother, ih hrest]
    | zero =>
      cases h.at_place
      have hwithin : FilePath.isWithin root (FilePath.resolve root name) = true :=
        (isWithin_iff _ _).mpr (h.holds.elim And.left And.left)
      rw [findFile, hwithin, Bool.not_true, if_neg Bool.false_ne_true]
      split_ifs with hlong hfile
      · rfl
      · rfl
      · exact (h.holds.elim (fun hh => hfile hh.2) fun hc => hlong hc.2).elim

theorem findFile_of_none {roots : List FilePath}
    (h : ∀ root ∈ roots, ¬ (t.Holds name root ∨ t.Chokes name root)) :
    findFile t name roots = .ok none := by
  induction roots with
  | nil => rfl
  | cons root roots ih =>
    obtain ⟨hroot, hrest⟩ := List.forall_mem_cons.mp h
    rw [findFile_cons hroot, ih hrest]

/-- The first directory that holds a file of a name is where the search ends, if the name is not too
long in it or before. -/
theorem IsFirst.of_holds {roots : List FilePath} {i : Nat} {root : FilePath}
    (h : IsFirst (t.Holds name) roots i root)
    (hshort : ∀ j ≤ i, ∀ other, roots[j]? = some other → ¬ t.Chokes name other) :
    IsFirst (fun root => t.Holds name root ∨ t.Chokes name root) roots i root where
  at_place := h.at_place
  holds := .inl h.holds
  before hj _ hother := not_or.mpr ⟨h.before hj hother, hshort _ (Nat.le_of_lt hj) _ hother⟩

end Search

section Loading

variable {roots : List FilePath} {encoding : Text.Encoding} {span : Option Span} {name : String}
  {l : Library}

/-- What a loader of files does with a name, by what the search comes to. -/
theorem files_run (hname : hasNull name = false) :
    (Loader.files roots encoding).resolve span name l = match findFile l.tree name roots with
      | .error e => .error (.fault e) l
      | .ok (some p) => .ok (some p.text) l
      | .ok none =>
        .error (.script ⟨.notFound (.directories name (roots.map FilePath.text)), span⟩) l := by
  unfold Loader.resolve
  rw [hname, Bool.false_and, if_neg Bool.false_ne_true]
  dsimp only
  rw [bind_of_ok (get_run l)]
  cases findFile l.tree name roots with
  | error e => rfl
  | ok found => cases found <;> rfl

theorem files_found (hname : hasNull name = false) {i : Nat} {root : FilePath}
    (h : IsFirst (l.tree.Holds name) roots i root)
    (hshort : ∀ j ≤ i, ∀ other, roots[j]? = some other → ¬ l.tree.Chokes name other) :
    (Loader.files roots encoding).resolve span name l =
      .ok (some (FilePath.resolve root name).text) l := by
  have hlong : ¬ l.tree.isTooLong (FilePath.resolve root name) = true := fun hlong =>
    hshort i (Nat.le_refl i) root h.at_place ⟨h.holds.1, hlong⟩
  rw [files_run hname, findFile_of_first (h.of_holds hshort), if_neg hlong]

/-- In the first directory in which a name is too long, and that no directory with a file of the name
comes before, the search is a fault with the path there. -/
theorem files_tooLong (hname : hasNull name = false) {i : Nat} {root : FilePath}
    (h : IsFirst (l.tree.Chokes name) roots i root)
    (hnone : ∀ j < i, ∀ other, roots[j]? = some other → ¬ l.tree.Holds name other) :
    (Loader.files roots encoding).resolve span name l =
      .error (.fault (.nameTooLong (FilePath.resolve root name).text)) l := by
  have hfirst : IsFirst (fun root => l.tree.Holds name root ∨ l.tree.Chokes name root) roots i root :=
    ⟨h.at_place, .inr h.holds, fun hj other hother =>
      not_or.mpr ⟨hnone _ hj other hother, h.before hj hother⟩⟩
  rw [files_run hname, findFile_of_first hfirst, if_pos h.holds.2]

/-- A path of a file that is not too long is found under itself, if a directory has it. -/
theorem files_found_text {p : FilePath} (hp : p.IsNormal) (hfile : l.tree.isFile p = true)
    (hlong : ¬ l.tree.isTooLong p = true) {root : FilePath} (hroot : root ∈ roots) (hwithin : root <+: p) :
    (Loader.files roots encoding).resolve span p.text l = .ok (some p.text) l := by
  obtain ⟨i, other, h⟩ | h := isFirst_or_forall_not
      (fun root => l.tree.Holds p.text root ∨ l.tree.Chokes p.text root) roots
  · rw [files_run hp.hasNull_text, findFile_of_first h, hp.resolve_text, if_neg hlong]
  · refine absurd (.inl ⟨?_, ?_⟩) (h root hroot)
    · rwa [hp.resolve_text]
    · rwa [hp.resolve_text]

/-- What a loader of files gives is the path under the first directory that holds a file of the name. -/
theorem files_ok (hroots : ∀ root ∈ roots, root.IsNormal) (hname : hasNull name = false)
    {path : Option String} {l' : Library}
    (h : (Loader.files roots encoding).resolve span name l = .ok path l') :
    l' = l ∧ ∃ i root p, IsFirst (l.tree.Holds name) roots i root ∧ p = FilePath.resolve root name ∧
      p.IsNormal ∧ root <+: p ∧ l.tree.isFile p = true ∧ path = some p.text := by
  have hrun : _ = EStateM.Result.ok path l' := (files_run hname).symm.trans h
  obtain ⟨i, root, hfirst⟩ | hnone := isFirst_or_forall_not
    (fun root => l.tree.Holds name root ∨ l.tree.Chokes name root) roots
  · rw [findFile_of_first hfirst] at hrun
    split_ifs at hrun with hlong
    cases hrun
    have hholds : l.tree.Holds name root := hfirst.holds.resolve_right fun hc => hlong hc.2
    have hroot := hroots root (List.mem_of_getElem? hfirst.at_place)
    exact ⟨rfl, i, root, _,
      ⟨hfirst.at_place, hholds, fun hj _ hother hh => hfirst.before hj hother (.inl hh)⟩, rfl,
      FilePath.isNormal_resolve hroot hname, hholds.1, hholds.2, rfl⟩
  · rw [findFile_of_none hnone] at hrun
    cases hrun

/-- A name that means the same in every directory up to the first that holds a file has its path. -/
theorem files_found_respelled {name' : String} (hname' : hasNull name' = false) {i : Nat} {root : FilePath}
    (h : IsFirst (l.tree.Holds name) roots i root)
    (hshort : ∀ j ≤ i, ∀ other, roots[j]? = some other → ¬ l.tree.Chokes name other)
    (hsame : ∀ j ≤ i, ∀ other, roots[j]? = some other →
      FilePath.resolve other name' = FilePath.resolve other name) :
    (Loader.files roots encoding).resolve span name' l =
      .ok (some (FilePath.resolve root name).text) l := by
  have hfirst : IsFirst (l.tree.Holds name') roots i root := h.congr fun j hj other hother => by
    rw [FileTree.Holds, hsame j hj other hother, FileTree.Holds]
  rw [← hsame i (Nat.le_refl i) root h.at_place]
  refine files_found hname' hfirst fun j hj other hother => ?_
  rw [FileTree.Chokes, hsame j hj other hother]
  exact hshort j hj other hother

end Loading

/-- A loader of files gives the path of a name under the first directory that holds a file of it
without the name leading out of the directory, and no other path; if there is none, the template is
not found. The path is normal, it is the same for any name that means the same in this directory and
those before it, and as a name it is its own path. All this as long as the search comes upon no path
that is too long for a file. -/
theorem files_resolve (encoding : Text.Encoding) (span : Option Span) {roots : List FilePath}
    (hroots : ∀ root ∈ roots, root.IsNormal) {name : String} (hname : hasNull name = false)
    (l : Library) :
    let getPath := fun name => (Loader.files roots encoding).resolve span name l
    (∀ path l', getPath name = .ok path l' → l' = l ∧ ∃ i root p, IsFirst (l.tree.Holds name) roots i root ∧
      p = FilePath.resolve root name ∧ p.IsNormal ∧ root <+: p ∧ l.tree.isFile p = true ∧
      path = some p.text) ∧
    (∀ i root, IsFirst (l.tree.Holds name) roots i root →
      (∀ j ≤ i, ∀ other, roots[j]? = some other → ¬ l.tree.Chokes name other) →
      let path := (FilePath.resolve root name).text
      getPath name = .ok (some path) l ∧ getPath path = .ok (some path) l ∧
      ∀ name', hasNull name' = false →
        (∀ j ≤ i, ∀ other, roots[j]? = some other →
          FilePath.resolve other name' = FilePath.resolve other name) →
        getPath name' = .ok (some path) l) ∧
    ((∀ root ∈ roots, ¬ l.tree.Holds name root) → (∀ root ∈ roots, ¬ l.tree.Chokes name root) →
      getPath name =
        .error (.script ⟨.notFound (.directories name (roots.map FilePath.text)), span⟩) l) := by
  intro getPath
  refine ⟨fun path l' => files_ok hroots hname, fun i root h hshort => ?_, fun hnone hshort => ?_⟩
  · have hmem := List.mem_of_getElem? h.at_place
    refine ⟨files_found hname h hshort, ?_, fun name' hname' => files_found_respelled hname' h hshort⟩
    refine files_found_text (FilePath.isNormal_resolve (hroots root hmem) hname) h.holds.2 ?_ hmem
      h.holds.1
    exact fun hlong => hshort i (Nat.le_refl i) root h.at_place ⟨h.holds.1, hlong⟩
  · show (Loader.files roots encoding).resolve span name l = _
    rw [files_run hname, findFile_of_none fun root hroot => not_or.mpr ⟨hnone root hroot, hshort root hroot⟩]

/-- A name found in the second of two directories, on a way through a directory that is not there, and
a name of a file beside the first one. -/
theorem files_resolve_second :
    let roots := [["srv", "own"], ["srv", "lib"]]
    let l : Library := { tree := { files := [(["srv", "owned"], []), (["srv", "lib", "t"], [])] } }
    let getPath := fun name => (Loader.files roots .utf8).resolve none name l
    ((∀ root ∈ roots, FilePath.IsNormal root) ∧ hasNull "x/../t" = false ∧
      IsFirst (l.tree.Holds "x/../t") roots 1 ["srv", "lib"]) ∧
    getPath "x/../t" = .ok (some "/srv/lib/t") l ∧ getPath "/srv/lib/t" = .ok (some "/srv/lib/t") l ∧
    getPath "./t" = .ok (some "/srv/lib/t") l ∧
    getPath "../owned" =
      .error (.script ⟨.notFound (.directories "../owned" ["/srv/own", "/srv/lib"]), none⟩) l := by
  intro roots l getPath
  have hroots : ∀ root ∈ roots, FilePath.IsNormal root := by decide +kernel
  have hfirst : IsFirst (l.tree.Holds "x/../t") roots 1 ["srv", "lib"] :=
    (IsFirst.head ⟨by decide +kernel, by decide +kernel⟩ []).cons fun hholds =>
      absurd hholds.2 (by decide +kernel)
  have hshort (name : String) (h : ∀ root ∈ roots, ¬ l.tree.isTooLong (FilePath.resolve root name) = true) :
      ∀ root ∈ roots, ¬ l.tree.Chokes name root := fun root hroot hc => h root hroot hc.2
  have hpath : (FilePath.resolve ["srv", "lib"] "x/../t").text = "/srv/lib/t" := by decide +kernel
  have hdirectories : roots.map FilePath.text = ["/srv/own", "/srv/lib"] := by decide +kernel
  obtain ⟨-, hfound, -⟩ := files_resolve .utf8 none hroots (show hasNull "x/../t" = false from rfl) l
  have hsecond := hfound 1 ["srv", "lib"] hfirst fun j _ other hother =>
    hshort "x/../t" (by decide +kernel) other (List.mem_of_getElem? hother)
  dsimp only at hsecond
  rw [hpath] at hsecond
  obtain ⟨hrun, hagain, hsame⟩ := hsecond
  have hsteps : ∀ root ∈ roots, FilePath.resolve root "./t" = FilePath.resolve root "x/../t" := by
    decide +kernel
  refine ⟨⟨hroots, rfl, hfirst⟩, hrun, hagain,
    hsame "./t" rfl fun j _ other hother => hsteps other (List.mem_of_getElem? hother), ?_⟩
  obtain ⟨-, -, hnone⟩ := files_resolve .utf8 none hroots (show hasNull "../owned" = false from rfl) l
  rw [hdirectories] at hnone
  refine hnone (fun root hroot hholds => ?_) (hshort "../owned" (by decide +kernel))
  have houtside : ∀ root ∈ roots, ¬ root <+: FilePath.resolve root "../owned" := by decide +kernel
  exact houtside root hroot hholds.1

/-- A name that leads to no file is not always one that is not found, since it may be too long. And two
names that mean the same in the directory where the first is found may have different paths, since in
a directory before it they may differ. -/
theorem not_files_resolve :
    (¬ ∀ (roots : List FilePath) encoding span name l, (∀ root ∈ roots, root.IsNormal) →
      hasNull name = false → (∀ root ∈ roots, ¬ l.tree.Holds name root) →
      ∃ e l', (Loader.files roots encoding).resolve span name l = .error (.script e) l' ∧
        e.kind = .templateNotFound) ∧
    ¬ ∀ (roots : List FilePath) encoding span name name' l i root path,
      (∀ root ∈ roots, root.IsNormal) → hasNull name = false → hasNull name' = false →
      IsFirst (l.tree.Holds name) roots i root →
      FilePath.resolve root name' = FilePath.resolve root name →
      (Loader.files roots encoding).resolve span name l = .ok path l →
      (Loader.files roots encoding).resolve span name' l = .ok path l := by
  constructor
  · intro h
    let l : Library := { tree := { files := [(["d", "t"], [])] } }
    let name := String.ofList (List.replicate 256 'a')
    have hletters {c : Char} (hc : c ∈ name.toList) : c = 'a' := by
      rw [String.toList_ofList] at hc
      exact List.eq_of_mem_replicate hc
    have hname : FilePath.IsNormal [name] := by
      intro part hpart
      obtain rfl := List.mem_singleton.mp hpart
      exact ⟨by decide +kernel, by decide +kernel, by decide +kernel,
        fun hc => absurd (hletters hc) (by decide), fun hc => absurd (hletters hc) (by decide)⟩
    have hnull : hasNull name = false := FilePath.hasNull_name hname
    have hresolve : FilePath.resolve ["d"] name = ["d", name] := FilePath.resolve_name hname ["d"]
    have hfirst : IsFirst (l.tree.Chokes name) [["d"]] 0 ["d"] := by
      refine .head ?_ []
      rw [FileTree.Chokes, hresolve]
      exact ⟨List.prefix_append ["d"] [name], by decide +kernel⟩
    have hrun : (Loader.files [["d"]] .utf8).resolve none name l = _ :=
      files_tooLong hnull hfirst fun j hj => absurd hj (Nat.not_lt_zero j)
    obtain ⟨e, l', he, -⟩ := h [["d"]] .utf8 none name l (by decide +kernel) hnull (by
      intro root hroot hholds
      rw [List.mem_singleton.mp hroot, FileTree.Holds, hresolve] at hholds
      exact absurd hholds.2 (by decide +kernel))
    rw [hrun] at he
    cases he
  · intro h
    let roots : List FilePath := [["u", "b", "c"], ["b"]]
    let l : Library := { tree := { files := [(["u", "b", "c", "t"], []), (["b", "c", "t"], [])] } }
    have hfirst : IsFirst (l.tree.Holds "c/t") roots 1 ["b"] :=
      (IsFirst.head ⟨by decide +kernel, by decide +kernel⟩ []).cons fun hholds =>
        absurd hholds.2 (by decide +kernel)
    have hclimbing : IsFirst (l.tree.Holds "../../b/c/t") roots 0 ["u", "b", "c"] :=
      .head ⟨by decide +kernel, by decide +kernel⟩ _
    have hshort : ∀ name ∈ ["c/t", "../../b/c/t"], ∀ root ∈ roots,
        ¬ l.tree.isTooLong (FilePath.resolve root name) = true := by decide +kernel
    have hrun : (Loader.files roots .utf8).resolve none "c/t" l = _ :=
      files_found rfl hfirst fun j _ other hother hc =>
        hshort "c/t" (by decide +kernel) other (List.mem_of_getElem? hother) hc.2
    have hrun' : (Loader.files roots .utf8).resolve none "../../b/c/t" l = _ :=
      files_found rfl hclimbing fun j _ other hother hc =>
        hshort "../../b/c/t" (by decide +kernel) other (List.mem_of_getElem? hother) hc.2
    have hsame := h roots .utf8 none "c/t" "../../b/c/t" l 1 ["b"] _ (by decide +kernel) rfl rfl hfirst
      (by decide +kernel) hrun
    rw [hrun'] at hsame
    injection hsame with hpath
    exact absurd hpath (by decide +kernel)

end Stencil
