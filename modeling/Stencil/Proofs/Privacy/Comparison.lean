import Stencil.Proofs.Privacy.Matching

/-!
# Comparing values that match

Equality, likeness, order and the keys of dictionaries do not look at private attributes: host
objects are compared by their numbers alone. Every comparison of matching values therefore answers
the same, with a fault as without.
-/

namespace Stencil

variable {M : Matching}

/-! ## Keys -/

namespace Value.Matches

theorem equalAtom {v w v' w' : Value} (h : v.Matches M w) (h' : v'.Matches M w') :
    w.equalAtom w' = v.equalAtom v' := by
  have hsame := h.same h'
  cases h <;> cases h' <;> first | rfl | exact hsame

mutual

theorem sameKey {v w v' w' : Value} (h : v.Matches M w) (h' : v'.Matches M w') :
    w.sameKey w' = v.sameKey v' := by
  have hrest : (w.same w' || w.equalAtom w') = (v.same v' || v.equalAtom v') := by
    rw [h.same h', h.equalAtom h']
  cases h with
  | tuple _ hvs =>
    cases h' with
    | tuple _ hvs' =>
      rw [Value.sameKey, Value.sameKey]
      exact sameKeys hvs hvs'
    | _ => exact hrest
  | _ => cases h' <;> exact hrest

theorem sameKeys {vs ws vs' ws' : List Value} (h : List.Forall₂ (Value.Matches M) vs ws)
    (h' : List.Forall₂ (Value.Matches M) vs' ws') :
    Value.sameKeys ws ws' = Value.sameKeys vs vs' := by
  cases h with
  | nil => cases h' <;> rfl
  | cons hv hvs =>
    cases h' with
    | nil => rfl
    | cons hv' hvs' =>
      rw [Value.sameKeys, Value.sameKeys, sameKey hv hv', sameKeys hvs hvs']

end

mutual

theorem unhashable? {v w : Value} (h : v.Matches M w) : w.unhashable? = v.unhashable? := by
  cases h with
  | tuple _ hvs =>
    rw [Value.unhashable?, Value.unhashable?]
    exact unhashableItem? hvs
  | _ => rfl

theorem unhashableItem? {vs ws : List Value} (h : List.Forall₂ (Value.Matches M) vs ws) :
    Value.unhashableItem? ws = Value.unhashableItem? vs := by
  cases h with
  | nil => rfl
  | cons hv hvs =>
    rw [Value.unhashableItem?, Value.unhashableItem?, unhashable? hv, unhashableItem? hvs]

end

end Value.Matches

/-! ## Entries -/

/-- The first entries under a key match, or neither side has one. -/
theorem find?_matches {xs ys : List (Value × Value)} (h : List.Forall₂ (Entry.Matches M) xs ys)
    {k l : Value} (hk : k.Matches M l) :
    Option.Rel (Entry.Matches M) (xs.find? fun (other, _) => other.sameKey k)
      (ys.find? fun (other, _) => other.sameKey l) := by
  induction h with
  | nil => exact .none
  | @cons x y _ _ hxy _ ih =>
    have hkey : y.1.sameKey l = x.1.sameKey k := hxy.1.sameKey hk
    simp only [List.find?_cons, hkey]
    cases x.1.sameKey k with
    | true => exact .some hxy
    | false => exact ih

namespace Entries

variable {xs ys : List (Value × Value)} (h : List.Forall₂ (Entry.Matches M) xs ys) {k l : Value}
  (hk : k.Matches M l)

include h hk

theorem get?_matches : Option.Rel (Value.Matches M) (Entries.get? k xs) (Entries.get? l ys) := by
  have hfind := find?_matches h hk
  unfold Entries.get?
  generalize xs.find? _ = a, ys.find? _ = b at hfind
  cases hfind with
  | none => exact .none
  | some hxy => exact .some hxy.2

theorem set_matches {v w : Value} (hv : v.Matches M w) :
    List.Forall₂ (Entry.Matches M) (Entries.set k v xs) (Entries.set l w ys) := by
  induction h with
  | nil => exact .cons ⟨hk, hv⟩ .nil
  | @cons x y _ _ hxy hrest ih =>
    rw [Entries.set, Entries.set, hxy.1.sameKey hk]
    split
    · exact .cons ⟨hxy.1, hv⟩ hrest
    · exact .cons hxy ih

omit hk in
theorem ofList_matches : List.Forall₂ (Entry.Matches M) (Entries.ofList xs) (Entries.ofList ys) := by
  have hfold {ds es : List (Value × Value)} (hd : List.Forall₂ (Entry.Matches M) ds es) :
      List.Forall₂ (Entry.Matches M) (xs.foldl (fun d (k, v) => Entries.set k v d) ds)
        (ys.foldl (fun d (k, v) => Entries.set k v d) es) := by
    induction h generalizing ds es with
    | nil => exact hd
    | cons hxy _ ih => exact ih (set_matches hd hxy.1 hxy.2)
  exact hfold .nil

theorem lookUp_matches : Except.Rel (Option.Rel (Value.Matches M)) (lookUp xs k) (lookUp ys l) := by
  unfold lookUp
  rw [hk.unhashable?]
  cases k.unhashable? with
  | some type => exact .error _
  | none => exact .ok (get?_matches h hk)

end Entries

/-! ## Equality -/

section Parts

variable {ask ask' : Value → Value → Except Fault Bool}
  (hask : ∀ {v w v' w'}, v.Matches M w → v'.Matches M w' → ask' w w' = ask v v')

include hask

theorem allAlike_matches {vs ws vs' ws' : List Value} (h : List.Forall₂ (Value.Matches M) vs ws)
    (h' : List.Forall₂ (Value.Matches M) vs' ws') :
    allAlike ask' ws ws' = allAlike ask vs vs' := by
  induction h generalizing vs' ws' with
  | nil => cases h' <;> rfl
  | cons hv _ ih =>
    cases h' with
    | nil => rfl
    | cons hv' hvs' => rw [allAlike, allAlike, hask hv hv', ih hvs']

theorem allEntriesAlike_matches {xs ys xs' ys' : List (Value × Value)}
    (h : List.Forall₂ (Entry.Matches M) xs ys) (h' : List.Forall₂ (Entry.Matches M) xs' ys') :
    allEntriesAlike ask' ys ys' = allEntriesAlike ask xs xs' := by
  induction h' with
  | nil => rfl
  | @cons x y _ _ hxy _ ih =>
    have hfind := find?_matches h hxy.1
    rw [allEntriesAlike, allEntriesAlike, ih]
    generalize xs.find? _ = a, ys.find? _ = b at hfind
    cases hfind with
    | none => rfl
    | some hfound =>
      dsimp only
      rw [hask hfound.2 hxy.2]

end Parts

namespace Store.Matches

variable {s t : Store} (hs : s.Matches M t)

include hs

theorem equalWithin (depth : Nat) {v w v' w' : Value} (h : v.Matches M w) (h' : v'.Matches M w') :
    t.equalWithin depth w w' = s.equalWithin depth v v' := by
  induction depth generalizing v w v' w' with
  | zero => rfl
  | succ depth ih =>
    have hask {v w v' w' : Value} (h : v.Matches M w) (h' : v'.Matches M w') :
        (if w.same w' then .ok true else t.equalWithin depth w w') =
          (if v.same v' then .ok true else s.equalWithin depth v v') := by
      rw [h.same h', ih h h']
    have hatom : Except.ok (w.equalAtom w') = (.ok (v.equalAtom v') : Except Fault Bool) := by
      rw [h.equalAtom h']
    cases h with
    | list hi =>
      cases h' with
      | list hj =>
        rw [Store.equalWithin, Store.equalWithin, (hs.contents hi).length_eq,
          (hs.contents hj).length_eq, allAlike_matches hask (hs.contents hi) (hs.contents hj)]
      | _ => exact hatom
    | tuple _ hvs =>
      cases h' with
      | tuple _ hvs' =>
        rw [Store.equalWithin, Store.equalWithin, allAlike_matches hask hvs hvs', hvs.length_eq,
          hvs'.length_eq]
      | _ => exact hatom
    | dict id hk hv =>
      cases h' with
      | dict id' hk' hv' =>
        have hentries := Value.Matches.entries (.dict id hk hv)
        have hentries' := Value.Matches.entries (.dict id' hk' hv')
        rw [Store.equalWithin, Store.equalWithin, hentries.length_eq, hentries'.length_eq,
          allEntriesAlike_matches hask hentries' hentries]
      | _ => exact hatom
    | _ => cases h' <;> exact hatom

theorem alike {v w v' w' : Value} (h : v.Matches M w) (h' : v'.Matches M w') :
    t.alike w w' = s.alike v v' := by
  rw [Store.alike, Store.alike, h.same h', Store.equal, Store.equal, hs.equalWithin _ h h']

end Store.Matches

/-! ## Order -/

theorem Value.Matches.orderNumbers (op : Comparison) {v w v' w' : Value} (h : v.Matches M w)
    (h' : v'.Matches M w') : (match w.numeric?, w'.numeric? with
      | some m, some n => .ok ((m.compare n).any op.holds)
      | _, _ => .error (.unordered op.symbol w.typeName w'.typeName) : Except Fault Bool) =
      match v.numeric?, v'.numeric? with
      | some m, some n => .ok ((m.compare n).any op.holds)
      | _, _ => .error (.unordered op.symbol v.typeName v'.typeName) := by
  rw [h.numeric?, h'.numeric?, h.typeName, h'.typeName]

theorem Value.Matches.orderAtom (op : Comparison) {v w v' w' : Value} (h : v.Matches M w)
    (h' : v'.Matches M w') : w.orderAtom op w' = v.orderAtom op v' := by
  have hrest := h.orderNumbers op h'
  cases h with
  | text _ _ =>
    cases h' with
    | text _ _ => rfl
    | _ => exact hrest
  | _ => exact hrest

theorem orderItems_matches (op : Comparison) {ask ask' order order' : Value → Value → Except Fault Bool}
    (hask : ∀ {v w v' w'}, v.Matches M w → v'.Matches M w' → ask' w w' = ask v v')
    (horder : ∀ {v w v' w'}, v.Matches M w → v'.Matches M w' → order' w w' = order v v')
    {vs ws vs' ws' : List Value} (h : List.Forall₂ (Value.Matches M) vs ws)
    (h' : List.Forall₂ (Value.Matches M) vs' ws') :
    orderItems op ask' order' ws ws' = orderItems op ask order vs vs' := by
  induction h generalizing vs' ws' with
  | nil => cases h' <;> rfl
  | cons hv _ ih =>
    cases h' with
    | nil => rfl
    | cons hv' hvs' => rw [orderItems, orderItems, hask hv hv', horder hv hv', ih hvs']

namespace Store.Matches

variable {s t : Store} (hs : s.Matches M t)

include hs

theorem orderWithin (op : Comparison) (depth : Nat) {v w v' w' : Value} (h : v.Matches M w)
    (h' : v'.Matches M w') : t.orderWithin op depth w w' = s.orderWithin op depth v v' := by
  induction depth generalizing v w v' w' with
  | zero => rfl
  | succ depth ih =>
    have hask {v w v' w' : Value} (h : v.Matches M w) (h' : v'.Matches M w') :
        (if w.same w' then .ok true else t.equalWithin depth w w') =
          (if v.same v' then .ok true else s.equalWithin depth v v') := by
      rw [h.same h', hs.equalWithin depth h h']
    have hatom := h.orderAtom op h'
    cases h with
    | list hi =>
      cases h' with
      | list hj => exact orderItems_matches op hask ih (hs.contents hi) (hs.contents hj)
      | _ => exact hatom
    | tuple _ hvs =>
      cases h' with
      | tuple _ hvs' => exact orderItems_matches op hask ih hvs hvs'
      | _ => exact hatom
    | _ => exact hatom

/-- Every comparison of matching values answers the same. -/
theorem compareBy (op : Comparison) {v w v' w' : Value} (h : v.Matches M w)
    (h' : v'.Matches M w') : t.compareBy op w w' = s.compareBy op v v' := by
  have hequal : t.equal w w' = s.equal v v' := hs.equalWithin depthLimit h h'
  cases op with
  | eq => exact hequal
  | ne => rw [Store.compareBy, Store.compareBy, hequal]
  | _ => exact hs.orderWithin _ depthLimit h h'

end Store.Matches

end Stencil
