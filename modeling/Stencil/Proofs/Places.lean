import Stencil.Proofs.Twins

/-!
# Where something is called from

Loaders are told where in the templates they are asked from. The place is part of their
failures and of what a recording loader keeps, and of nothing else: libraries that differ
in the places of recorded calls answer alike (`Loader.matches_resolve`,
`Loader.matches_load`). Functions of a host that take no note of places either, nor of
how the text in a sink was put together, leave twins as twins
(`Host.IgnoresPlaces.twinning`).
-/

namespace Stencil

open Eval

/-! ## Loaders -/

/-- A call of a loader without its place. -/
def LoaderCall.unplaced : LoaderCall → LoaderCall
  | .resolve name _ => .resolve name none
  | .load path _ => .load path none

/-- A cell without the places of the calls that were recorded. -/
def LoaderCell.unplaced (c : LoaderCell) : LoaderCell :=
  { c with record := c.record.map LoaderCall.unplaced }

/-- Libraries that are the same but for the places of the calls that were recorded. -/
structure Library.Alike (l l' : Library) : Prop where
  tree : l'.tree = l.tree
  cells : l'.cells.map LoaderCell.unplaced = l.cells.map LoaderCell.unplaced

namespace Library.Alike

theorem refl (l : Library) : l.Alike l := ⟨rfl, rfl⟩

variable {l l' : Library} (h : l.Alike l')

include h

theorem cell? (i : Nat) :
    l'.cells[i]?.map LoaderCell.unplaced = l.cells[i]?.map LoaderCell.unplaced := by
  rw [← Array.getElem?_map, ← Array.getElem?_map, h.cells]

theorem cell (i : Nat) : (l'.cell i).unplaced = (l.cell i).unplaced := by
  have hi := h.cell? i
  unfold Library.cell
  generalize l.cells[i]? = a at hi ⊢
  generalize l'.cells[i]? = b at hi ⊢
  rw [← Option.getD_map LoaderCell.unplaced, ← Option.getD_map LoaderCell.unplaced, hi]

theorem changeCell (i : Nat) {f f' : LoaderCell → LoaderCell}
    (hf : ∀ c c', c'.unplaced = c.unplaced → (f' c').unplaced = (f c).unplaced) :
    (l.changeCell i f).Alike (l'.changeCell i f') where
  tree := h.tree
  cells := by
    refine Array.ext_getElem? fun j => ?_
    have hj := h.cell? j
    simp only [Library.changeCell, Array.getElem?_map, Array.getElem?_modify]
    split
    · generalize l.cells[j]? = a at hj ⊢
      generalize l'.cells[j]? = b at hj ⊢
      cases a with
      | none =>
        obtain rfl := Option.map_eq_none_iff.mp hj
        rfl
      | some c =>
        obtain ⟨c', rfl, hc⟩ := Option.map_eq_some_iff.mp hj
        exact congrArg some (hf c c' hc)
    · exact hj

end Library.Alike

namespace Loader

variable {α : Type}

/-- What looks at a cell, but not at the places of recorded calls. -/
theorem matches_cell (i : Nat) {k k' : LoaderCell → Lookup α}
    (h : ∀ c c', c'.unplaced = c.unplaced → Matches False Library.Alike (k c) (k' c')) :
    Matches False Library.Alike (Lookup.cell i >>= k) (Lookup.cell i >>= k') :=
  fun l l' hl => h _ _ (hl.cell i) l l' hl

theorem matches_note (i : Nat) {call call' : LoaderCall} (h : call'.unplaced = call.unplaced) :
    Matches False Library.Alike (Lookup.note i call) (Lookup.note i call') := by
  refine fun l l' hl => .ok (hl.changeCell i fun c c' hc => ?_)
  obtain ⟨htexts, hpaths, howners, hrecord⟩ := LoaderCell.mk.inj hc
  simp only [LoaderCell.unplaced, List.map_append, List.map_cons, h, htexts, hpaths, howners, hrecord]

theorem matches_notFound (reason : NotFound) (span span' : Option Span) :
    Matches False Library.Alike (Lookup.notFound reason span : Lookup α)
      (Lookup.notFound reason span') := fun _ _ hl => .error ⟨rfl, False.elim⟩ hl

theorem texts_eq {c c' : LoaderCell} (h : c'.unplaced = c.unplaced) : c'.texts = c.texts :=
  congrArg (·.texts) h

theorem paths_eq {c c' : LoaderCell} (h : c'.unplaced = c.unplaced) : c'.paths = c.paths :=
  congrArg (·.paths) h

theorem owners_eq {c c' : LoaderCell} (h : c'.unplaced = c.unplaced) : c'.owners = c.owners :=
  congrArg (·.owners) h

theorem isNotFound_unplaced (x : Failure) : x.unplaced.isNotFound = x.isNotFound := by
  cases x <;> rfl

theorem isNotFound_eq {x y : Failure} (h : x.Like False y) : y.isNotFound = x.isNotFound := by
  rw [← isNotFound_unplaced, ← isNotFound_unplaced x, h.unplaced]

/-- What looks at the files of the library, and at nothing else of it. -/
theorem matches_tree {k k' : Library → Lookup α}
    (h : ∀ l l' : Library, l'.tree = l.tree → Matches False Library.Alike (k l) (k' l')) :
    Matches False Library.Alike (do k (← get)) (do k' (← get)) :=
  fun l l' hl => h l l' hl.tree l l' hl

variable (span span' : Option Span)

mutual

/-- The path of a name does not depend on the place that asks for it. -/
theorem matches_resolve (name : String) : ∀ loader : Loader,
    Matches False Library.Alike (resolve span name loader) (resolve span' name loader)
  | .mapping i => matches_cell i fun c c' hc => by
    rw [texts_eq hc]
    dsimp only
    split
    · exact .pure _
    · exact matches_notFound _ span span'
  | .function _ => .pure _
  | .recording i => by
    have hnote : Matches False Library.Alike (Lookup.note i (.resolve name span))
      (Lookup.note i (.resolve name span')) := matches_note i rfl
    refine hnote.bind fun _ => matches_cell i fun c c' hc => ?_
    rw [paths_eq hc]
    exact .pure _
  | .files roots _ => by
    have hfind : Matches False Library.Alike
        (do
          match findFile (← get).tree name roots with
          | .error e => throw (.fault e)
          | .ok (some p) => return some p.text
          | .ok none => Lookup.notFound (.directories name (roots.map FilePath.text)) span)
        (do
          match findFile (← get).tree name roots with
          | .error e => throw (.fault e)
          | .ok (some p) => return some p.text
          | .ok none => Lookup.notFound (.directories name (roots.map FilePath.text)) span') := by
      refine matches_tree fun l l' htree => ?_
      rw [htree]
      split
      · exact .throw _
      · exact .pure _
      · exact matches_notFound _ span span'
    unfold resolve
    split
    · exact .throw _
    · exact hfind
  | .choice i members => by
    unfold resolve
    refine (matches_resolveFirst name 0 members).bind fun found => ?_
    cases found with
    | none => exact matches_notFound _ span span'
    | some found =>
      refine Matches.bind (fun l l' hl => .ok (hl.changeCell i fun c c' hc => ?_)) fun _ => .pure _
      rw [owners_eq hc]
      split
      · exact hc
      · obtain ⟨htexts, hpaths, -, hrecord⟩ := LoaderCell.mk.inj hc
        simp only [LoaderCell.unplaced, htexts, hpaths, hrecord]

theorem matches_resolveFirst (name : String) (n : Nat) : ∀ loaders : List Loader,
    Matches False Library.Alike (resolveFirst span name n loaders) (resolveFirst span' name n loaders)
  | [] => .pure _
  | loader :: rest => by
    intro l l' hl
    have hrest := matches_resolveFirst name (n + 1) rest
    obtain ⟨path, m, m', e, e', hm⟩ | ⟨x, y, m, m', e, e', hx, hm⟩ :=
      (matches_resolve name loader l l' hl).cases_at
    · simp only [resolveFirst, e, e']
      cases path with
      | none => exact hrest m m' hm
      | some path =>
        dsimp only
        split
        · exact hrest m m' hm
        · exact .ok hm
    · simp only [resolveFirst, e, e', isNotFound_eq hx]
      split
      · exact hrest m m' hm
      · exact .error hx hm

end

mutual

/-- The text at a path does not depend on the place that asks for it. -/
theorem matches_load (path : String) : ∀ loader : Loader,
    Matches False Library.Alike (load span path loader) (load span' path loader)
  | .mapping i => matches_cell i fun c c' hc => by
    rw [texts_eq hc]
    exact .pure _
  | .function i => matches_cell i fun c c' hc => by
    rw [texts_eq hc]
    exact .pure _
  | .recording i => by
    have hnote : Matches False Library.Alike (Lookup.note i (.load path span))
      (Lookup.note i (.load path span')) := matches_note i rfl
    refine hnote.bind fun _ => matches_cell i fun c c' hc => ?_
    rw [texts_eq hc]
    exact .pure _
  | .files _ encoding => by
    unfold load
    refine matches_tree fun l l' htree => ?_
    rw [htree]
    split
    · exact .pure _
    · exact .throw _
  | .choice i members => by
    unfold load
    refine matches_cell i fun c c' hc => ?_
    rw [owners_eq hc]
    split
    · exact matches_loadAt path _ members
    · exact matches_loadFirst path members

theorem matches_loadAt (path : String) : ∀ (n : Nat) (loaders : List Loader),
    Matches False Library.Alike (loadAt span path n loaders) (loadAt span' path n loaders)
  | _, [] => .pure _
  | 0, loader :: _ => matches_load path loader
  | n + 1, _ :: rest => matches_loadAt path n rest

theorem matches_loadFirst (path : String) : ∀ loaders : List Loader,
    Matches False Library.Alike (loadFirst span path loaders) (loadFirst span' path loaders)
  | [] => .pure _
  | loader :: rest => (matches_load path loader).bind fun text => by
    cases text with
    | none => exact matches_loadFirst path rest
    | some text => exact .pure _

end

end Loader

/-! ## Output -/

/-- Sinks with the same texts. -/
def SameTexts (x : Sink) (xs : List Sink) (y : Sink) (ys : List Sink) : Prop :=
  (y :: ys).map Sink.text = (x :: xs).map Sink.text

theorem bottomWrites_sameTexts : BottomWrites SameTexts := by
  intro x y xs ys store v text h _
  obtain ⟨htop, hbelow⟩ := List.cons.inj h
  show ((y.write v text).text :: ys.map Sink.text) = (x.write v text).text :: xs.map Sink.text
  rw [Sink.write_text, Sink.write_text, htop, hbelow]

/-! ## Files -/

/-- A step that leaves the files being executed. -/
def State.SameFiles (s t : State) : Prop := t.context.sourceFiles = s.context.sourceFiles

namespace Eval

theorem sameFiles : OfFiles State.SameFiles where
  refl _ := rfl
  trans h k := k.trans h
  of_files h := h

theorem sameFiles_within {path : Option String} {body : Eval Value}
    (h : Moves State.SameFiles body) : Moves State.SameFiles (within path body) := by
  cases path with
  | none => exact h
  | some path =>
    intro s
    have hs : (after body (s.inFiles (path :: s.context.sourceFiles))).context.sourceFiles =
      path :: s.context.sourceFiles := h (s.inFiles (path :: s.context.sourceFiles))
    rw [after_within, after_bind_of_ok (popSourceFile_run hs)]
    rfl

end Eval

/-! ## Hosts -/

/-- Functions of a host that look neither at the places of calls nor at what a text in a
sink was put together from: where nothing else differs, they do the same. They leave the
files being executed, which make a part of each place. -/
structure Host.IgnoresPlaces (host : Host) : Prop
    extends host.Respects False SameTexts Library.Alike where
  files (name : String) (span : Option Span) (arguments : List Value) :
    Moves State.SameFiles (host.contextual name span arguments)

namespace Host.IgnoresPlaces

variable {host : Host} (h : host.IgnoresPlaces)

include h

theorem twinning : Twinning False host SameTexts Library.Alike where
  toRespects := h.toRespects
  write := bottomWrites_sameTexts
  resolve loader {span span'} _ name := Loader.matches_resolve span span' name loader
  load loader {span span'} _ path := Loader.matches_load span span' path loader

theorem keepsFiles : host.KeepsFiles := fun name span arguments s =>
  Nat.le_of_eq (congrArg List.length (h.files name span arguments s).symm)

/-- Evaluation leaves the files being executed. -/
theorem frame : Frame host (fun _ => True) (fun _ => True) State.SameFiles :=
  Eval.sameFiles.frame h.files Eval.sameFiles_within

end Host.IgnoresPlaces

theorem quietHost_ignoresPlaces : quietHost.IgnoresPlaces where
  toRespects := quietHost_respects bottomWrites_sameTexts
  files := quietHost_moves Eval.sameFiles.toSequential (fun _ _ => rfl) (fun _ _ => rfl)
    (fun _ _ => rfl) fun _ _ _ => rfl

end Stencil
