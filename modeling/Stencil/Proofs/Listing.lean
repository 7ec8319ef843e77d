import Mathlib.Algebra.GroupWithZero.Nat
import Mathlib.Data.String.Basic
import Stencil.Proofs.Confinement

/-!
# What is listed and what is found

A loader of files lists the files below its directories, by their names there, in order and each once.
Those are the names that it finds (`files_listed`): a name without dots and empty parts is listed if
and only if one of the directories holds a file of it, and then the search ends in the first one that
does, unless it comes upon a path that is too long before. Whatever name a file is found by, it is
listed by the name that it has in the directory where it was found.
-/

namespace Stencil

/-! ## Names in order -/

theorem mem_sortedNames {names : List String} {name : String} :
    name ∈ sortedNames names ↔ name ∈ names := List.mem_mergeSort

/-- Names of which each is there once are put in strict order. -/
theorem sortedNames_pairwise {names : List String} (h : names.Nodup) :
    (sortedNames names).Pairwise (· < ·) := by
  have hle (a b : String) : (!decide (b < a)) = true ↔ a ≤ b := by
    rw [Bool.not_eq_true', decide_eq_false_iff_not, not_lt]
  have hsorted : (sortedNames names).Pairwise fun a b => (!decide (b < a)) = true := by
    refine List.pairwise_mergeSort (fun a b c hab hbc => ?_) (fun a b => ?_) names
    · exact (hle a c).mpr (le_trans ((hle a b).mp hab) ((hle b c).mp hbc))
    · rw [Bool.or_eq_true, hle, hle]
      exact le_total a b
  have hnodup : (sortedNames names).Nodup := (List.mergeSort_perm _ _).nodup_iff.mpr h
  exact (hsorted.and hnodup).imp fun ⟨hab, hne⟩ => lt_of_le_of_ne ((hle _ _).mp hab) hne

theorem nodup_eraseDups (names : List String) : names.eraseDups.Nodup := by
  match names with
  | [] => exact List.nodup_nil
  | name :: names =>
    rw [List.eraseDups_cons]
    refine List.nodup_cons.mpr ⟨fun hmem => ?_, nodup_eraseDups _⟩
    have hother := (List.mem_filter.mp (List.mem_eraseDups.mp hmem)).2
    rw [beq_self_eq_true] at hother
    cases hother
termination_by names.length
decreasing_by exact Nat.lt_succ_of_le (List.length_filter_le _ _)

/-! ## Names in a directory -/

namespace FilePath

/-- A name that says where a file is in a directory, part by part. -/
def IsRelative (name : String) : Prop := ∀ part ∈ parts name, part ≠ "" ∧ part ≠ "." ∧ part ≠ ".."

instance : DecidablePred IsRelative := fun name => inferInstanceAs (Decidable (∀ part ∈ parts name, _))

theorem go_ne_nil (cs part : List Char) : parts.go cs part ≠ [] := by
  induction cs generalizing part with
  | nil => exact List.cons_ne_nil _ _
  | cons c cs ih =>
    by_cases hc : c = '/'
    · subst hc
      exact List.cons_ne_nil _ _
    · rw [go_of_ne hc]
      exact ih _

theorem parts_ne_nil (name : String) : parts name ≠ [] := mt List.map_eq_nil_iff.mp (go_ne_nil _ _)

/-- The parts of a name, with slashes between them again. -/
theorem intercalate_go (cs part : List Char) :
    ['/'].intercalate (parts.go cs part) = part.reverse ++ cs := by
  induction cs generalizing part with
  | nil => rw [parts.go, List.intercalate_singleton, List.append_nil]
  | cons c cs ih =>
    by_cases hc : c = '/'
    · subst hc
      obtain ⟨first, rest, hgo⟩ := List.exists_cons_of_ne_nil (go_ne_nil cs [])
      rw [parts.go, hgo, List.intercalate_cons_cons, ← hgo, ih, List.reverse_nil, List.nil_append,
        List.append_assoc, List.singleton_append]
    · rw [go_of_ne hc, ih, List.reverse_cons, List.append_assoc, List.singleton_append]

theorem intercalate_parts (name : String) : "/".intercalate (parts name) = name := by
  have hmap : (parts name).map String.toList = parts.go name.toList [] := by
    rw [parts, List.map_map]
    exact List.map_id'' (fun _ => String.toList_ofList) _
  refine String.toList_inj.mp ?_
  rw [String.toList_intercalate, hmap]
  exact intercalate_go name.toList []

/-- The name of a normal path has the parts of the path. -/
theorem IsNormal.parts_intercalate {p : FilePath} (h : p.IsNormal) (hne : p ≠ []) :
    parts ("/".intercalate p) = p := by
  have hgo : parts.go (['/'].intercalate (p.map String.toList)) [] = p.map String.toList := by
    refine go_intercalate (mt List.map_eq_nil_iff.mp hne) fun cs hcs => ?_
    obtain ⟨part, hpart, rfl⟩ := List.mem_map.mp hcs
    exact (h part hpart).2.2.2.1
  rw [parts, String.toList_intercalate]
  refine (congrArg (List.map String.ofList) hgo).trans ?_
  rw [List.map_map]
  exact List.map_id'' (fun _ => String.ofList_toList) p

theorem IsNormal.isRelative {p : FilePath} (h : p.IsNormal) (hne : p ≠ []) :
    IsRelative ("/".intercalate p) := by
  rw [IsRelative, h.parts_intercalate hne]
  exact fun part hpart => ⟨(h part hpart).1, (h part hpart).2.1, (h part hpart).2.2.1⟩

/-- The size of a path: that of its names, each with the slash in front. -/
theorem size_text {p : FilePath} (hne : p ≠ []) :
    p.text.utf8ByteSize = (p.map fun part => part.utf8ByteSize + 1).sum := by
  have hslash : "/".utf8ByteSize = 1 := rfl
  rw [text, String.utf8ByteSize_append, hslash]
  induction p with
  | nil => exact absurd rfl hne
  | cons part p ih =>
    rw [List.map_cons, List.sum_cons]
    cases p with
    | nil =>
      rw [String.intercalate_singleton, List.map_nil, List.sum_nil]
      omega
    | cons next p =>
      rw [← ih (List.cons_ne_nil next p), String.intercalate_cons_cons, String.utf8ByteSize_append,
        String.utf8ByteSize_append, hslash]
      omega

/-- Such a name leads below the directory, as it says. -/
theorem IsRelative.resolve {name : String} (h : IsRelative name) (directory : FilePath) :
    resolve directory name = directory ++ parts name := by
  have hhead : (name.toList.head? == some '/') = false := by
    refine beq_false_of_ne fun hhead => ?_
    obtain ⟨rest, hname⟩ := List.head?_eq_some_iff.mp hhead
    have hfirst : "" ∈ parts name := by
      rw [parts, hname, parts.go]
      exact List.mem_cons_self
    exact (h "" hfirst).1 rfl
  rw [FilePath.resolve, hhead, if_neg Bool.false_ne_true, foldl_step h]

end FilePath

/-! ## Files below directories -/

namespace FileTree

/-- A tree as a file system has it: its files have normal paths, and none of them is a directory. -/
structure IsSound (t : FileTree) : Prop where
  normal : ∀ p, t.isFile p = true → p.IsNormal
  leaf : ∀ p, t.isFile p = true → t.isDirectory p = false

variable {t : FileTree} {root : FilePath} {name : String}

theorem isFile_iff {p : FilePath} : t.isFile p = true ↔ ∃ bytes, (p, bytes) ∈ t.files := by
  rw [isFile, contents?, Option.isSome_map, List.find?_isSome]
  constructor
  · rintro ⟨⟨q, bytes⟩, hmem, hq⟩
    exact ⟨bytes, beq_iff_eq.mp hq ▸ hmem⟩
  · exact fun ⟨bytes, hmem⟩ => ⟨(p, bytes), hmem, beq_self_eq_true p⟩

theorem isSound_of_forall (h : ∀ file ∈ t.files, file.1.IsNormal ∧ t.isDirectory file.1 = false) :
    t.IsSound where
  normal p hp := by
    obtain ⟨bytes, hmem⟩ := isFile_iff.mp hp
    exact (h _ hmem).1
  leaf p hp := by
    obtain ⟨bytes, hmem⟩ := isFile_iff.mp hp
    exact (h _ hmem).2

/-- What is below a directory are the files whose paths go on from there. -/
theorem mem_below : name ∈ t.below root ↔
    ∃ rest, rest ≠ [] ∧ t.isFile (root ++ rest) = true ∧ name = "/".intercalate rest := by
  rw [below, List.mem_filterMap]
  constructor
  · rintro ⟨⟨p, bytes⟩, hmem, hname⟩
    dsimp only at hname
    split at hname
    · next hbelow =>
      rw [Bool.and_eq_true, List.isPrefixOf_iff_prefix, decide_eq_true_iff] at hbelow
      obtain ⟨⟨rest, rfl⟩, hlength⟩ := hbelow
      rw [List.drop_left] at hname
      refine ⟨rest, ?_, isFile_iff.mpr ⟨bytes, hmem⟩, (Option.some.inj hname).symm⟩
      rintro rfl
      rw [List.append_nil] at hlength
      exact Nat.lt_irrefl _ hlength
    · cases hname
  · rintro ⟨rest, hne, hfile, rfl⟩
    obtain ⟨bytes, hmem⟩ := isFile_iff.mp hfile
    have hlength : root.length < (root ++ rest).length := by
      rw [List.length_append]
      exact Nat.lt_add_of_pos_right (List.length_pos_iff.mpr hne)
    refine ⟨_, hmem, ?_⟩
    dsimp only
    rw [List.isPrefixOf_iff_prefix.mpr (List.prefix_append root rest), decide_eq_true hlength,
      Bool.and_true, if_pos rfl, List.drop_left]

theorem IsSound.normal_below (ht : t.IsSound) {rest : FilePath}
    (h : t.isFile (root ++ rest) = true) : FilePath.IsNormal rest := fun part hpart =>
  ht.normal _ h part (List.mem_append_right root hpart)

/-- In a sound tree, the names below a directory are those that lead to a file in it, part by part. -/
theorem IsSound.mem_below_iff (ht : t.IsSound) :
    name ∈ t.below root ↔ t.isFile (root ++ FilePath.parts name) = true := by
  rw [mem_below]
  constructor
  · rintro ⟨rest, hne, hfile, rfl⟩
    rwa [(ht.normal_below hfile).parts_intercalate hne]
  · exact fun hfile =>
      ⟨_, FilePath.parts_ne_nil name, hfile, (FilePath.intercalate_parts name).symm⟩

end FileTree

/-! ## The loader -/

section Loading

variable {roots : List FilePath} {encoding : Text.Encoding} {span : Option Span} {name : String}
  {l : Library}

theorem files_list (roots : List FilePath) (encoding : Text.Encoding) (l : Library) :
    (Loader.files roots encoding).list l =
      .ok (sortedNames (roots.flatMap l.tree.below).eraseDups) l := rfl

/-- A name that cannot be that of a file is not found. -/
theorem hasNull_of_ok {path : Option String} {l' : Library}
    (h : (Loader.files roots encoding).resolve span name l = .ok path l') : hasNull name = false := by
  refine Bool.eq_false_iff.mpr fun hnull => ?_
  rw [Loader.resolve, hnull] at h
  cases roots with
  | nil => cases h
  | cons root roots => cases h

variable (ht : l.tree.IsSound)

include ht

theorem mem_list : name ∈ sortedNames (roots.flatMap l.tree.below).eraseDups ↔
    ∃ root ∈ roots, l.tree.isFile (root ++ FilePath.parts name) = true := by
  rw [mem_sortedNames, List.mem_eraseDups, List.mem_flatMap]
  exact exists_congr fun root => and_congr_right fun _ => ht.mem_below_iff

omit ht in
theorem holds_iff (hname : FilePath.IsRelative name) (root : FilePath) :
    l.tree.Holds name root ↔ l.tree.isFile (root ++ FilePath.parts name) = true := by
  rw [FileTree.Holds, hname.resolve]
  exact and_iff_right (List.prefix_append root _)

/-- A name that leads to a file part by part has no character that names cannot have. -/
theorem hasNull_of_isFile {root : FilePath}
    (h : l.tree.isFile (root ++ FilePath.parts name) = true) : hasNull name = false := by
  refine Bool.eq_false_iff.mpr fun hnull => ?_
  obtain ⟨cs, hcs, hmem⟩ :=
    FilePath.exists_mem_go [] (.inr (List.contains_iff_mem.mp hnull)) (by decide)
  have hpart : String.ofList cs ∈ FilePath.parts name := List.mem_map_of_mem hcs
  have hnormal := ht.normal_below h (String.ofList cs) hpart
  exact hnormal.2.2.2.2 (by rwa [String.toList_ofList])

end Loading

/-- The names that a loader of files lists are in order and each is there once. A name that says where
a file is, part by part, is listed if it is found, and then its path is that of the file in the first
directory that has it; and if it is listed, there is such a directory, and the name is found there as
long as no path that the search comes upon is too long for a file. Whatever name is found, its file is
listed by its name in the directory where it was found. -/
theorem files_listed (encoding : Text.Encoding) (span : Option Span) {roots : List FilePath} {l : Library}
    (ht : l.tree.IsSound)
    (hroots : ∀ root ∈ roots, root.IsNormal ∧ l.tree.isDirectory root = true) :
    let getPath := fun name => (Loader.files roots encoding).resolve span name l
    let HasFile := fun name root => l.tree.isFile (root ++ FilePath.parts name) = true
    ∃ names, (Loader.files roots encoding).list l = .ok names l ∧ names.Pairwise (· < ·) ∧
      (∀ name, FilePath.IsRelative name →
        (∀ path l', getPath name = .ok path l' → name ∈ names ∧
          ∃ i root, IsFirst (HasFile name) roots i root ∧
            path = some (root ++ FilePath.parts name).text) ∧
        (name ∈ names → ∃ i root, IsFirst (HasFile name) roots i root ∧
          ((∀ j ≤ i, ∀ other, roots[j]? = some other →
              ¬ l.tree.isTooLong (other ++ FilePath.parts name) = true) →
            getPath name = .ok (some (root ++ FilePath.parts name).text) l))) ∧
      ∀ name path l', getPath name = .ok path l' → ∃ i root rest,
        IsFirst (l.tree.Holds name) roots i root ∧ path = some (root ++ rest).text ∧
          "/".intercalate rest ∈ names := by
  intro getPath HasFile
  have hnormal : ∀ root ∈ roots, root.IsNormal := fun root hroot => (hroots root hroot).1
  refine ⟨_, files_list roots encoding l, sortedNames_pairwise (nodup_eraseDups _),
    fun name hname => ⟨fun path l' hpath => ?_, fun hlisted => ?_⟩, fun name path l' hpath => ?_⟩
  · obtain ⟨-, i, root, p, hfirst, rfl, -, -, hfile, rfl⟩ :=
      files_ok hnormal (hasNull_of_ok hpath) hpath
    rw [hname.resolve] at hfile ⊢
    exact ⟨(mem_list ht).mpr ⟨root, List.mem_of_getElem? hfirst.at_place, hfile⟩, i, root,
      hfirst.congr fun _ _ other _ => (holds_iff hname other).symm, rfl⟩
  · obtain ⟨other, hother, hfile⟩ := (mem_list ht).mp hlisted
    obtain ⟨i, root, hfirst⟩ := (isFirst_or_forall_not (HasFile name) roots).resolve_right
      fun hnone => hnone other hother hfile
    refine ⟨i, root, hfirst, fun hshort => ?_⟩
    have hholds : IsFirst (l.tree.Holds name) roots i root :=
      hfirst.congr fun _ _ other _ => holds_iff hname other
    have hfound : getPath name = .ok (some (FilePath.resolve root name).text) l :=
      files_found (hasNull_of_isFile ht hfile) hholds fun j hj other hother hchokes => by
        rw [FileTree.Chokes, hname.resolve] at hchokes
        exact hshort j hj other hother hchokes.2
    rwa [hname.resolve] at hfound
  · obtain ⟨-, i, root, p, hfirst, -, -, ⟨rest, rfl⟩, hfile, rfl⟩ :=
      files_ok hnormal (hasNull_of_ok hpath) hpath
    have hroot := List.mem_of_getElem? hfirst.at_place
    have hne : rest ≠ [] := by
      rintro rfl
      rw [List.append_nil] at hfile
      have hdirectory := (hroots root hroot).2
      rw [ht.leaf root hfile] at hdirectory
      cases hdirectory
    refine ⟨i, root, rest, hfirst, rfl, (mem_list ht).mpr ⟨root, hroot, ?_⟩⟩
    rwa [(ht.normal_below hfile).parts_intercalate hne]

/-- A directory within another one, and a file of the same name in both. -/
theorem files_listed_nested :
    let roots := [["srv", "own"], ["srv"]]
    let l : Library := { tree := { files := [(["srv", "own", "t"], []), (["srv", "t"], [])] } }
    let getPath := fun name => (Loader.files roots .utf8).resolve none name l
    (l.tree.IsSound ∧ ∀ root ∈ roots, FilePath.IsNormal root ∧ l.tree.isDirectory root = true) ∧
    ∃ names, (Loader.files roots .utf8).list l = .ok names l ∧ names.Pairwise (· < ·) ∧
      (FilePath.IsRelative "t" ∧ "t" ∈ names ∧ getPath "t" = .ok (some "/srv/own/t") l) ∧
      FilePath.IsRelative "own/t" ∧ "own/t" ∈ names ∧ getPath "own/t" = .ok (some "/srv/own/t") l := by
  intro roots l getPath
  have ht : l.tree.IsSound := FileTree.isSound_of_forall (by decide +kernel)
  have hroots : ∀ root ∈ roots, FilePath.IsNormal root ∧ l.tree.isDirectory root = true := by
    decide +kernel
  obtain ⟨names, hlist, hordered, hnames, -⟩ := files_listed .utf8 none ht hroots
  obtain rfl : sortedNames (roots.flatMap l.tree.below).eraseDups = names := by
    rw [files_list] at hlist
    injection hlist
  have hlisted (name : String) (root : FilePath) (hroot : root ∈ roots)
      (hfile : l.tree.isFile (root ++ FilePath.parts name) = true) :
      name ∈ sortedNames (roots.flatMap l.tree.below).eraseDups := (mem_list ht).mpr ⟨root, hroot, hfile⟩
  have hshort (name : String)
      (h : ∀ root ∈ roots, ¬ l.tree.isTooLong (root ++ FilePath.parts name) = true) (i : Nat) :
      ∀ j ≤ i, ∀ other, roots[j]? = some other →
        ¬ l.tree.isTooLong (other ++ FilePath.parts name) = true :=
    fun j _ other hother => h other (List.mem_of_getElem? hother)
  have hrelative : FilePath.IsRelative "t" ∧ FilePath.IsRelative "own/t" := by decide +kernel
  have hown : "t" ∈ sortedNames (roots.flatMap l.tree.below).eraseDups :=
    hlisted "t" ["srv", "own"] (by decide) (by decide +kernel)
  have hbelow : "own/t" ∈ sortedNames (roots.flatMap l.tree.below).eraseDups :=
    hlisted "own/t" ["srv"] (by decide) (by decide +kernel)
  refine ⟨⟨ht, hroots⟩, _, hlist, hordered, ⟨hrelative.1, hown, ?_⟩, hrelative.2, hbelow, ?_⟩
  · obtain ⟨i, root, hfirst, hfound⟩ := (hnames "t" hrelative.1).2 hown
    cases i with
    | zero =>
      cases hfirst.at_place
      exact hfound (hshort "t" (by decide +kernel) 0)
    | succ i => exact absurd (by decide +kernel) (hfirst.before (Nat.succ_pos i) rfl)
  · obtain ⟨i, root, hfirst, hfound⟩ := (hnames "own/t" hrelative.2).2 hbelow
    match i, hfirst.at_place with
    | 0, hplace =>
      cases hplace
      exact absurd hfirst.holds (by decide +kernel)
    | 1, hplace =>
      cases hplace
      exact hfound (hshort "own/t" (by decide +kernel) 1)

/-- A name that is listed is not always found: in a directory before the one that has a file of it, its
path may be too long. -/
theorem not_files_listed :
    ¬ ∀ (roots : List FilePath) encoding span l, l.tree.IsSound →
      (∀ root ∈ roots, root.IsNormal ∧ l.tree.isDirectory root = true) →
      ∀ names, (Loader.files roots encoding).list l = .ok names l → ∀ name ∈ names,
        FilePath.IsRelative name →
          ∃ path l', (Loader.files roots encoding).resolve span name l = .ok path l' := by
  intro h
  let part : String := String.ofList (List.replicate 250 'a')
  let deep : FilePath := List.replicate 14 part
  let rest : FilePath := List.replicate 3 part
  let l : Library := { tree := { files := [("b" :: rest, [])], base := deep } }
  have hpart : FilePath.IsNormal [part] := by decide +kernel
  have hrepeated (n : Nat) : FilePath.IsNormal (List.replicate n part) := fun other hother =>
    hpart other (List.mem_singleton.mpr (List.eq_of_mem_replicate hother))
  have hparts : FilePath.parts ("/".intercalate rest) = rest :=
    (hrepeated 3).parts_intercalate (List.cons_ne_nil _ _)
  have hrelative : FilePath.IsRelative ("/".intercalate rest) :=
    (hrepeated 3).isRelative (List.cons_ne_nil _ _)
  have hbelow : FilePath.IsNormal ["b"] := by decide +kernel
  have hfile : FilePath.IsNormal ("b" :: rest) := List.forall_mem_cons.mpr
    ⟨hbelow "b" List.mem_cons_self, hrepeated 3⟩
  have ht : l.tree.IsSound := FileTree.isSound_of_forall fun file hmem => by
    obtain rfl := List.mem_singleton.mp hmem
    exact ⟨hfile, by decide +kernel⟩
  have hroots : ∀ root ∈ [deep, ["b"]], root.IsNormal ∧ l.tree.isDirectory root = true := by
    rintro root (_ | ⟨_, _ | ⟨_, ⟨⟩⟩⟩)
    · have hbase : deep.isPrefixOf deep = true := List.isPrefixOf_iff_prefix.mpr List.prefix_rfl
      exact ⟨hrepeated 14, by rw [FileTree.isDirectory, hbase, Bool.true_or]⟩
    · exact ⟨hbelow, by decide +kernel⟩
  have hlisted : "/".intercalate rest ∈ sortedNames ([deep, ["b"]].flatMap l.tree.below).eraseDups := by
    refine (mem_list ht).mpr ⟨["b"], List.mem_cons_of_mem _ List.mem_cons_self, ?_⟩
    rw [hparts]
    exact FileTree.isFile_iff.mpr ⟨[], List.mem_cons_self⟩
  have hlong : l.tree.isTooLong (deep ++ rest) = true := by
    have hpartSize : part.utf8ByteSize = 250 := by decide +kernel
    have hsize : FileTree.pathLimit ≤ (deep ++ rest).text.utf8ByteSize := by
      have hne : deep ++ rest ≠ [] := List.append_ne_nil_of_left_ne_nil (List.cons_ne_nil _ _) rest
      rw [FilePath.size_text hne, List.map_append, List.map_replicate, List.map_replicate,
        List.sum_append, List.sum_replicate_nat, List.sum_replicate_nat, hpartSize]
      decide
    rw [FileTree.isTooLong, decide_eq_true hsize, Bool.true_or]
  obtain ⟨path, l', hpath⟩ :=
    h [deep, ["b"]] .utf8 none l ht hroots _ (files_list _ _ l) _ hlisted hrelative
  have hfirst : IsFirst (l.tree.Chokes ("/".intercalate rest)) [deep, ["b"]] 0 deep := by
    refine .head ?_ _
    rw [FileTree.Chokes, hrelative.resolve, hparts]
    exact ⟨List.prefix_append deep rest, hlong⟩
  rw [files_tooLong (hasNull_of_ok hpath) hfirst fun j hj => absurd hj (Nat.not_lt_zero j)] at hpath
  cases hpath

end Stencil
