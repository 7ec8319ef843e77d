import Stencil.Proofs.Privacy.Parts

/-!
# Filling in values that match

A format takes values one after the other, or by their keys, and writes each by a letter: as text,
or as a number. Both are the same for matching values, and so is what is left of the format and what
values are left over.
-/

namespace Stencil

variable {M : Matching}

/-- Values that are still to be filled in, and match. -/
inductive Arguments.Matches (M : Matching) : Arguments → Arguments → Prop
  | queue {vs ws : List Value} : List.Forall₂ (Value.Matches M) vs ws →
      Arguments.Matches M (.queue vs) (.queue ws)
  | single {v w : Option Value} : Option.Rel (Value.Matches M) v w →
      Arguments.Matches M (.single v) (.single w)

namespace Arguments.Matches

variable {a b : Arguments} (h : a.Matches M b)

include h

theorem leftOver : b.leftOver = a.leftOver := by
  cases h with
  | queue hvs => rw [Arguments.leftOver, Arguments.leftOver, forall₂_isEmpty hvs]
  | single hv => cases hv <;> rfl

theorem next :
    Except.Rel (fun x y => x.1.Matches M y.1 ∧ x.2.Matches M y.2) a.next b.next := by
  cases h with
  | queue hvs =>
    cases hvs with
    | nil => exact .error _
    | cons hv hvs => exact .ok ⟨hv, .queue hvs⟩
  | single hv =>
    cases hv with
    | none => exact .error _
    | some hv => exact .ok ⟨hv, .single .none⟩

theorem star : Except.Rel (fun x y => y.1 = x.1 ∧ x.2.Matches M y.2) a.star b.star := by
  refine h.next.bind fun x y hxy => ?_
  dsimp only
  rw [hxy.1.integer?]
  cases x.1.integer? with
  | none => exact .error _
  | some n => exact .ok ⟨rfl, hxy.2⟩

end Arguments.Matches

theorem Value.Matches.arguments {v w : Value} (h : v.Matches M w) :
    (Arguments.ofValue v).Matches M (Arguments.ofValue w) := by
  have hsingle := Arguments.Matches.single (.some h)
  cases h with
  | tuple _ hvs => exact .queue hvs
  | _ => exact hsingle

theorem Value.Matches.takesKeys {v w : Value} (h : v.Matches M w) : takesKeys w = takesKeys v := by
  cases h <;> rfl

theorem formatValue_matches {v w : Value} (h : v.Matches M w) (key : List Char) :
    Except.Rel (Value.Matches M) (formatValue v key) (formatValue w key) := by
  cases h with
  | @dict id xs ys hk hv =>
    have hget := Entries.get?_matches (Value.Matches.entries (.dict id hk hv))
      (.text 0 (String.ofList key))
    unfold formatValue
    dsimp only
    generalize Entries.get? _ xs = a, Entries.get? _ ys = b at hget
    cases hget with
    | none => exact .error _
    | some hv => exact .ok hv
  | _ => exact .error _

/-! ## Writing one value -/

section Convert

variable {s t : Store} (hs : s.Matches M t) {v w : Value} (h : v.Matches M w)

include h

theorem formatInteger_matches (letter : Char) : formatInteger letter w = formatInteger letter v := by
  unfold formatInteger
  rw [h.numeric?, h.typeName]

theorem formatDouble_matches : formatDouble w = formatDouble v := by
  unfold formatDouble
  rw [h.numeric?, h.typeName]

theorem formatCharacter_matches : formatCharacter w = formatCharacter v := by
  cases h <;> rfl

include hs

theorem Store.Matches.convert (p : Placeholder) (letter : Char) (place : Nat) :
    t.convert p letter place w = s.convert p letter place v := by
  unfold Store.convert
  rw [hs.bare h, hs.quoted h, formatInteger_matches h, formatDouble_matches h,
    formatCharacter_matches h]

theorem Store.Matches.fill (p : Placeholder) (letter : Char) (place : Nat) :
    t.fill p letter place w = s.fill p letter place v := by
  rw [Store.fill, Store.fill, hs.convert h]

end Convert

/-! ## Reading a format -/

/-- What was read of a format is the same, and the values left match. -/
def Taken (M : Matching) {α : Type} (x y : α × Arguments × List Char) : Prop :=
  y.1 = x.1 ∧ x.2.1.Matches M y.2.1 ∧ y.2.2 = x.2.2

/-- What goes on from what was read of a format. -/
theorem Taken.bind {α β γ : Type} {Q : β → γ → Prop} {x y : Except Fault (α × Arguments × List Char)}
    {k : α × Arguments × List Char → Except Fault β} {l : α × Arguments × List Char → Except Fault γ}
    (h : Except.Rel (Taken M) x y)
    (hk : ∀ p a b cs, a.Matches M b → Except.Rel Q (k (p, a, cs)) (l (p, b, cs))) :
    Except.Rel Q (x >>= k) (y >>= l) := by
  refine h.bind ?_
  rintro ⟨p, a, cs⟩ ⟨_, b, _⟩ ⟨rfl, hab, rfl⟩
  exact hk _ a b _ hab

section Take

variable {a b : Arguments} (h : a.Matches M b)

include h

theorem takeWidth_matches (p : Placeholder) (cs : List Char) :
    Except.Rel (Taken M) (takeWidth p a cs) (takeWidth p b cs) := by
  unfold takeWidth
  split
  · refine h.star.bind fun x y hxy => ?_
    obtain ⟨n, a⟩ := x
    obtain ⟨_, b⟩ := y
    obtain ⟨rfl, hab⟩ := hxy
    dsimp only
    split
    · exact .error _
    · exact .ok ⟨rfl, hab, rfl⟩
  · split
    · dsimp only
      split
      · exact .error _
      · exact .ok ⟨rfl, h, rfl⟩
    · exact .ok ⟨rfl, h, rfl⟩
  · exact .ok ⟨rfl, h, rfl⟩

theorem takePrecision_matches (p : Placeholder) (cs : List Char) :
    Except.Rel (Taken M) (takePrecision p a cs) (takePrecision p b cs) := by
  unfold takePrecision
  split
  · refine h.star.bind fun x y hxy => ?_
    obtain ⟨n, a⟩ := x
    obtain ⟨_, b⟩ := y
    obtain ⟨rfl, hab⟩ := hxy
    dsimp only
    split
    · exact .error _
    · exact .ok ⟨rfl, hab, rfl⟩
  · dsimp only
    split
    · exact .error _
    · exact .ok ⟨rfl, h, rfl⟩
  · exact .ok ⟨rfl, h, rfl⟩

variable {v w : Value} (hv : v.Matches M w)

include hv

theorem takeSource_matches (cs : List Char) :
    Except.Rel (fun x y => x.1.Matches M y.1 ∧ y.2 = x.2) (takeSource v a cs)
      (takeSource w b cs) := by
  unfold takeSource
  rw [hv.takesKeys]
  split
  · dsimp only
    split
    · exact .error _
    · split
      · exact .error _
      · exact (formatValue_matches hv _).bind fun _ _ hx => .ok ⟨.single (.some hx), rfl⟩
  · exact .ok ⟨h, rfl⟩

theorem Store.Matches.fillNext {s t : Store} (hs : s.Matches M t) (total : Nat) (cs : List Char) :
    Except.Rel (Taken M) (s.fillNext total v a cs) (t.fillNext total w b cs) := by
  unfold Store.fillNext
  refine (takeSource_matches h hv cs).bind fun x y hxy => ?_
  obtain ⟨a, cs⟩ := x
  obtain ⟨b, _⟩ := y
  obtain ⟨hab, rfl⟩ := hxy
  refine Taken.bind (takeWidth_matches hab _ _) fun p a b cs hab => ?_
  refine Taken.bind (takePrecision_matches hab _ _) fun p a b cs hab => ?_
  dsimp only
  split
  · exact .error _
  · refine hab.next.bind fun x y hxy => ?_
    rw [hs.fill hxy.1]
    exact (Except.Rel.refl (fun _ => rfl) _).bind fun _ _ ht => .ok ⟨ht.symm, hxy.2, rfl⟩

theorem Store.Matches.fillAll {s t : Store} (hs : s.Matches M t) (total fuel : Nat)
    (cs : List Char) :
    Except.Rel (fun x y => y.1 = x.1 ∧ x.2.Matches M y.2) (s.fillAll total v fuel a cs)
      (t.fillAll total w fuel b cs) := by
  induction fuel generalizing a b cs with
  | zero => exact .ok ⟨rfl, h⟩
  | succ fuel ih =>
    unfold Store.fillAll
    dsimp only
    split
    · exact .ok ⟨rfl, h⟩
    · exact (ih h _).bind fun _ _ hxy => .ok ⟨by rw [hxy.1], hxy.2⟩
    · refine Taken.bind (hs.fillNext h hv total _) fun text a b rest hab => ?_
      exact (ih hab _).bind fun _ _ hxy => .ok ⟨by rw [hxy.1], hxy.2⟩

/-- The value that a format hands on matches, if it hands on one. -/
theorem handedOn?_matches {format format' : Value} (hf : format.Matches M format')
    (cs : List Char) :
    Option.Rel (Value.Matches M) (handedOn? format v a cs) (handedOn? format' w b cs) := by
  have hjoin {x y : Except Fault (Option Value)}
      (hxy : Except.Rel (Option.Rel (Value.Matches M)) x y) :
      Option.Rel (Value.Matches M) x.toOption.join y.toOption.join := by
    cases hxy with
    | ok h => exact h
    | error _ => exact .none
  unfold handedOn?
  split
  · refine hjoin ((takeSource_matches h hv _).bind fun x y hxy => ?_)
    obtain ⟨a, cs⟩ := x
    obtain ⟨b, _⟩ := y
    obtain ⟨hab, rfl⟩ := hxy
    refine Taken.bind (takeWidth_matches hab _ _) fun p a b cs hab => ?_
    refine Taken.bind (takePrecision_matches hab _ _) fun p a b cs hab => ?_
    refine hab.next.bind fun x y hxy => .ok ?_
    dsimp only
    split
    · exact .some hxy.1
    · exact .none
  · split
    · exact .none
    · exact .some hf

end Take

/-! ## Formats -/

theorem Matching.formatText (M : Matching) {v w : Value} (h : v.Matches M w) (format : String) :
    Pairs Eq (Store.Matches M) (formatText format v) (formatText format w) := by
  refine M.read fun s t hs => ?_
  refine (hs.fillAll h.arguments h _ _ _).bind fun x y hxy => ?_
  dsimp only
  rw [hxy.1, hxy.2.leftOver, h.takesKeys]
  exact .refl (fun _ => rfl) _

/-- A format is filled in with values that match in the same way. -/
theorem Matching.formatted (M : Matching) {format format' v w : Value}
    (hf : format.Matches M format') (h : v.Matches M w) (text : String) :
    Pairs (Value.Matches M) (Store.Matches M) (formatted format text v) (formatted format' text w) := by
  refine (M.formatText h text).bind fun filled _ hfilled => ?_
  subst hfilled
  have hhanded := handedOn?_matches h.arguments h hf text.toList
  generalize handedOn? format v _ _ = a, handedOn? format' w _ _ = b at hhanded
  cases hhanded with
  | none => exact M.newText _
  | @some v w hvw =>
    have hshown := M.shownBy? hvw filled
    dsimp only
    generalize Computation.shownBy? v filled = a, Computation.shownBy? w filled = b at hshown
    cases hshown with
    | none => exact M.newText _
    | some hshown =>
      refine (M.bare hvw).bind fun bare _ hbare => ?_
      subst hbare
      split
      · exact .pure hshown
      · exact M.newText _

end Stencil
