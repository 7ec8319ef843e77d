import Stencil.Proofs.Privacy.Format

/-!
# Reckoning with values that match

Operators look at numbers, at sequences and at the texts that show values, and at the names of types
when they refuse. None of these says anything of a private attribute.
-/

namespace Stencil

variable {M : Matching}

/-- Sequences of matching values. -/
inductive Sequence.Matches (M : Matching) : Sequence → Sequence → Prop
  | text (text : String) : Sequence.Matches M (.text text) (.text text)
  | list {vs ws : List Value} : List.Forall₂ (Value.Matches M) vs ws →
      Sequence.Matches M (.list vs) (.list ws)
  | tuple {vs ws : List Value} : List.Forall₂ (Value.Matches M) vs ws →
      Sequence.Matches M (.tuple vs) (.tuple ws)

theorem Store.Matches.sequence? {s t : Store} (hs : s.Matches M t) {v w : Value}
    (h : v.Matches M w) : Option.Rel (Sequence.Matches M) (s.sequence? v) (t.sequence? w) := by
  cases h with
  | text _ text => exact .some (.text text)
  | list hi => exact .some (.list (hs.contents hi))
  | tuple _ hvs => exact .some (.tuple hvs)
  | _ => exact .none

theorem Value.Matches.isText {v w : Value} (h : v.Matches M w) : w.isText = v.isText := by
  cases h <;> rfl

theorem repeated_matches (count : Int) {vs ws : List Value}
    (h : List.Forall₂ (Value.Matches M) vs ws) :
    List.Forall₂ (Value.Matches M) (repeated count vs) (repeated count ws) := by
  unfold repeated
  rw [forall₂_isEmpty h]
  split
  · exact .nil
  · refine List.rel_flatten ?_
    induction count.toNat with
    | zero => exact .nil
    | succ n ih => exact .cons h ih

namespace Matching

variable (M)

/-! ## Numbers -/

theorem answer {α : Type} (r : Except Fault α) :
    Pairs Eq (Store.Matches M) (Computation.ofExcept r) (Computation.ofExcept r) :=
  M.ofExcept (.refl (fun _ => rfl) r)

theorem onIntegers (op : Arithmetic) (m n : Int) :
    Pairs (Value.Matches M) (Store.Matches M) (op.onIntegers m n) (op.onIntegers m n) := by
  cases op with
  | divide => exact (M.answer _).bind fun _ _ hx => hx ▸ M.newFloat _
  | remainder =>
    unfold Arithmetic.onIntegers
    dsimp only
    split
    · exact .throw trivial
    · exact M.newInt _
  | _ => exact M.newInt _

theorem onDoubles (op : Arithmetic) (x y : Float) :
    Pairs (Value.Matches M) (Store.Matches M) (op.onDoubles x y) (op.onDoubles x y) := by
  cases op with
  | divide =>
    unfold Arithmetic.onDoubles
    dsimp only
    split
    · exact .throw trivial
    · exact M.newFloat _
  | remainder => exact (M.answer _).bind fun _ _ hx => hx ▸ M.newFloat _
  | _ => exact M.newFloat _

theorem onNumbers (op : Arithmetic) (m n : Numeric) :
    Pairs (Value.Matches M) (Store.Matches M) (op.onNumbers m n) (op.onNumbers m n) := by
  have hdoubles : Pairs (Value.Matches M) (Store.Matches M)
      (do op.onDoubles (← Computation.ofExcept m.toDouble) (← Computation.ofExcept n.toDouble))
      (do op.onDoubles (← Computation.ofExcept m.toDouble) (← Computation.ofExcept n.toDouble)) :=
    (M.answer _).bind fun _ _ hx => (M.answer _).bind fun _ _ hy => hx ▸ hy ▸ M.onDoubles op _ _
  cases m with
  | whole m =>
    cases n with
    | whole n => exact M.onIntegers op m n
    | double _ => exact hdoubles
  | double _ => exact hdoubles

variable {v w v' w' : Value}

theorem negate (h : v.Matches M w) :
    Pairs (Value.Matches M) (Store.Matches M) v.negate w.negate := by
  unfold Value.negate
  rw [h.numeric?, h.typeName]
  cases v.numeric? with
  | none => exact .throw trivial
  | some n =>
    cases n with
    | whole n => exact M.newInt _
    | double x => exact M.newFloat _

theorem onValues (op : Arithmetic) (h : v.Matches M w) (h' : v'.Matches M w') :
    Pairs (Value.Matches M) (Store.Matches M) (op.onValues v v') (op.onValues w w') := by
  unfold Arithmetic.onValues
  rw [h.numeric?, h'.numeric?, h.typeName, h'.typeName]
  split
  · exact M.onNumbers op _ _
  · exact .throw trivial

/-! ## Sequences -/

theorem joinTexts (h : v.Matches M w) (h' : v'.Matches M w') (s t : String) :
    Pairs (Value.Matches M) (Store.Matches M) (joinTexts v s v' t) (joinTexts w s w' t) := by
  unfold Stencil.joinTexts
  split
  · exact M.textOf h' t
  · split
    · exact M.textOf h s
    · exact M.newSpelling _

theorem sequenceTimes (count : Int) {x y : Sequence} (h : x.Matches M y) :
    Pairs (Value.Matches M) (Store.Matches M) (x.times count) (y.times count) := by
  cases h with
  | text t =>
    unfold Sequence.times
    dsimp only
    split
    · exact .throw trivial
    · split
      · exact .throw trivial
      · exact M.newText _
  | list hvs =>
    unfold Sequence.times
    dsimp only
    rw [hvs.length_eq]
    split
    · exact .throw trivial
    · exact M.newList (repeated_matches count hvs)
  | tuple hvs =>
    unfold Sequence.times
    dsimp only
    rw [hvs.length_eq]
    split
    · exact .throw trivial
    · exact M.newTuple (repeated_matches count hvs)

theorem timesValue (h : v.Matches M w) {count count' : Value} (hc : count.Matches M count')
    {x y : Sequence} (hx : x.Matches M y) :
    Pairs (Value.Matches M) (Store.Matches M) (x.timesValue v count) (y.timesValue w count') := by
  have hlist : y.isList = x.isList := by cases hx <;> rfl
  unfold Sequence.timesValue
  rw [hc.integer?, hc.typeName, hlist]
  split
  · exact .throw trivial
  · split
    · exact .throw trivial
    · split
      · exact .pure h
      · exact M.sequenceTimes _ hx

theorem followedBy (h : v.Matches M w) (h' : v'.Matches M w') {x y : Sequence} (hx : x.Matches M y)
    {x' y' : Option Sequence} (hx' : Option.Rel (Sequence.Matches M) x' y') :
    Pairs (Value.Matches M) (Store.Matches M) (x.followedBy v v' x') (y.followedBy w w' y') := by
  have hfault (type : String) : Pairs (Value.Matches M) (Store.Matches M)
      (throw (.cannotConcatenate type v'.typeName) : Computation Value)
      (throw (.cannotConcatenate type w'.typeName)) := by
    rw [h'.typeName]
    exact .throw trivial
  cases hx with
  | text s =>
    cases hx' with
    | none => exact hfault _
    | some hx' =>
      cases hx' with
      | text t => exact M.joinTexts h h' s t
      | _ => exact hfault _
  | list hvs =>
    cases hx' with
    | none => exact hfault _
    | some hx' =>
      cases hx' with
      | list hws => exact M.newList (List.rel_append hvs hws)
      | _ => exact hfault _
  | tuple hvs =>
    cases hx' with
    | none => cases hvs <;> exact hfault _
    | some hx' =>
      cases hx' with
      | tuple hws =>
        cases hvs with
        | nil => exact .pure h'
        | cons hv hvs =>
          cases hws with
          | nil => exact .pure h
          | cons hw hws => exact M.newTuple (List.rel_append (.cons hv hvs) (.cons hw hws))
      | _ => cases hvs <;> exact hfault _

theorem plus (h : v.Matches M w) (h' : v'.Matches M w') :
    Pairs (Value.Matches M) (Store.Matches M) (v.plus v') (w.plus w') := by
  unfold Value.plus
  rw [h.numeric?, h'.numeric?]
  split
  · exact M.onNumbers _ _ _
  · refine PairsWith.get fun s t hs => ?_
    have hx := hs.sequence? h
    have hx' := hs.sequence? h'
    generalize s.sequence? v = x, t.sequence? w = y at hx
    cases hx with
    | none =>
      dsimp only
      rw [h.typeName, h'.typeName]
      exact .error trivial hs
    | some hx => exact M.followedBy h h' hx hx' s t hs

theorem times (h : v.Matches M w) (h' : v'.Matches M w') :
    Pairs (Value.Matches M) (Store.Matches M) (v.times v') (w.times w') := by
  unfold Value.times
  rw [h.numeric?, h'.numeric?]
  split
  · exact M.onNumbers _ _ _
  · refine PairsWith.get fun s t hs => ?_
    have hx := hs.sequence? h
    have hx' := hs.sequence? h'
    generalize s.sequence? v = x, t.sequence? w = y at hx
    generalize s.sequence? v' = x', t.sequence? w' = y' at hx'
    cases hx with
    | some hx => exact M.timesValue h h' hx s t hs
    | none =>
      cases hx' with
      | some hx' => exact M.timesValue h' h hx' s t hs
      | none =>
        dsimp only
        rw [h.typeName, h'.typeName]
        exact .error trivial hs

/-- An operator does the same to values that match. -/
theorem arithmetic (op : Arithmetic) (h : v.Matches M w) (h' : v'.Matches M w') :
    Pairs (Value.Matches M) (Store.Matches M) (op.apply v v') (op.apply w w') := by
  have hvalues (op : Arithmetic) := M.onValues op h h'
  cases op with
  | add =>
    unfold Arithmetic.apply
    dsimp only
    rw [h.isText, h'.isText]
    split
    · refine (M.display h).bind fun _ _ hs => (M.display h').bind fun _ _ ht => ?_
      exact hs ▸ ht ▸ M.joinTexts h h' _ _
    · exact M.plus h h'
  | multiply => exact M.times h h'
  | remainder =>
    cases h with
    | text id text => exact M.formatted (.text id text) h' text
    | int id m =>
      cases h' with
      | int id' n =>
        unfold Arithmetic.apply
        dsimp only
        split
        · exact .pure (.int id m)
        · exact hvalues .remainder
      | _ => exact hvalues .remainder
    | _ => exact hvalues .remainder
  | _ => exact hvalues _

end Matching

end Stencil
