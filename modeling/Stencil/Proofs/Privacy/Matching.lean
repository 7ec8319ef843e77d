import Stencil.Proofs.Coupling

/-!
# Values up to private attributes

Values match if they differ in nothing but the private attributes of host objects, at any depth.
What stands behind these attributes may hold lists that the other side has not, so the lists of two
stores go together by a `Matching`; all other objects that both sides have are told from others by
the same numbers. Records and dictionaries have no private parts: they match part by part.
-/

namespace Stencil

variable {α β γ δ ε : Type}

/-! ## The relation -/

/-- Which lists of two stores go together. Those that are made from now on do, one after the
other; a list behind a private attribute may go together with none. -/
structure Matching where
  lists : ListId → ListId → Prop
  injective {i j i' j' : ListId} : lists i j → lists i' j' → (i = i' ↔ j = j')
  /-- how many lists there are at first, on either side -/
  left : Nat
  right : Nat
  fresh (k : Nat) : lists ⟨left + k⟩ ⟨right + k⟩

/-- The attributes that templates can see. -/
def publicAttributes (attributes : List (String × α)) : List (String × α) :=
  attributes.filter fun (name, _) => !isPrivate name

/-- Values that differ in nothing but the private attributes of objects. -/
inductive Value.Matches (M : Matching) : Value → Value → Prop
  | null : Value.Matches M .null .null
  | bool (b : Bool) : Value.Matches M (.bool b) (.bool b)
  | int (id : Nat) (n : Int) : Value.Matches M (.int id n) (.int id n)
  | float (id : Nat) (x : Float) : Value.Matches M (.float id x) (.float id x)
  | text (id : Nat) (s : String) : Value.Matches M (.text id s) (.text id s)
  | list {i j : ListId} : M.lists i j → Value.Matches M (.list i) (.list j)
  | tuple (id : Nat) {vs ws : List Value} :
      List.Forall₂ (Value.Matches M) vs ws → Value.Matches M (.tuple id vs) (.tuple id ws)
  | dict (id : Nat) {xs ys : List (Value × Value)} :
      List.Forall₂ (Value.Matches M) (xs.map Prod.fst) (ys.map Prod.fst) →
      List.Forall₂ (Value.Matches M) (xs.map Prod.snd) (ys.map Prod.snd) →
      Value.Matches M (.dict id xs) (.dict id ys)
  | object (id : Nat) (typeName : String) {as bs : List (String × Value)} :
      (publicAttributes bs).map Prod.fst = (publicAttributes as).map Prod.fst →
      List.Forall₂ (Value.Matches M) ((publicAttributes as).map Prod.snd)
        ((publicAttributes bs).map Prod.snd) →
      Value.Matches M (.object id typeName as) (.object id typeName bs)
  | record (id : Nat) (typeName : String) {as bs : List (String × Value)} :
      bs.map Prod.fst = as.map Prod.fst →
      List.Forall₂ (Value.Matches M) (as.map Prod.snd) (bs.map Prod.snd) →
      Value.Matches M (.record id typeName as) (.record id typeName bs)
  | unprintable (id : Nat) (typeName : String) (refusal : Refusal) :
      Value.Matches M (.unprintable id typeName refusal) (.unprintable id typeName refusal)
  | function (id : Nat) (f : Function) : Value.Matches M (.function id f) (.function id f)
  | method {v w : Value} (m : Method) :
      Value.Matches M v w → Value.Matches M (.method v m) (.method w m)

/-- Entries whose keys and values match. -/
def Entry.Matches (M : Matching) (a b : Value × Value) : Prop :=
  a.1.Matches M b.1 ∧ a.2.Matches M b.2

/-- Stores in which lists that go together hold values that match. They hand out the same numbers,
and the same lists were made since the beginning. -/
structure Store.Matches (M : Matching) (s t : Store) : Prop where
  nextNumber : t.nextNumber = s.nextNumber
  made : ∃ k, s.lists.size = M.left + k ∧ t.lists.size = M.right + k
  contents {i j : ListId} : M.lists i j →
    List.Forall₂ (Value.Matches M) (s.contents i) (t.contents j)

/-! ## Lists of pairs -/

theorem forall₂_zip {Q : α → γ → Prop} {R : β → δ → Prop} :
    ∀ {xs : List (α × β)} {ys : List (γ × δ)}, List.Forall₂ Q (xs.map Prod.fst) (ys.map Prod.fst) →
      List.Forall₂ R (xs.map Prod.snd) (ys.map Prod.snd) →
      List.Forall₂ (fun x y => Q x.1 y.1 ∧ R x.2 y.2) xs ys
  | [], [], _, _ => .nil
  | _ :: _, _ :: _, .cons hq hqs, .cons hr hrs => .cons ⟨hq, hr⟩ (forall₂_zip hqs hrs)

theorem forall₂_map_of {Q : γ → δ → Prop} {R : α → β → Prop} {f : α → γ} {g : β → δ}
    {as : List α} {bs : List β} (h : List.Forall₂ R as bs) (hf : ∀ a b, R a b → Q (f a) (g b)) :
    List.Forall₂ Q (as.map f) (bs.map g) :=
  List.forall₂_map_left_iff.mpr (List.forall₂_map_right_iff.mpr (h.imp hf))

theorem any_of_forall₂ {α β : Type} {R : α → β → Prop} {f : α → Bool} {g : β → Bool} {as : List α}
    {bs : List β} (h : List.Forall₂ R as bs) (hfg : ∀ a b, R a b → g b = f a) :
    bs.any g = as.any f := by
  induction h with
  | nil => rfl
  | cons hab _ ih => rw [List.any_cons, List.any_cons, hfg _ _ hab, ih]

theorem head?_rel {R : α → β → Prop} {as : List α} {bs : List β} (h : List.Forall₂ R as bs) :
    Option.Rel R as.head? bs.head? := by
  cases h with
  | nil => exact .none
  | cons hab _ => exact .some hab

/-- The same names with values that are related, one after the other. -/
theorem Table.Rel.of_map {Q : α → β → Prop} {as : List (String × α)} {bs : List (String × β)}
    (hn : bs.map Prod.fst = as.map Prod.fst)
    (hv : List.Forall₂ Q (as.map Prod.snd) (bs.map Prod.snd)) : Table.Rel Q as bs := by
  have hnames : List.Forall₂ (fun a b : String => b = a) (as.map Prod.fst) (bs.map Prod.fst) := by
    rw [hn]
    exact List.forall₂_same.mpr fun _ _ => rfl
  exact forall₂_zip hnames hv

/-! ## Values -/

namespace Value.Matches

variable {M : Matching} {v w v' w' : Value}

theorem entries {id id' : Nat} {xs ys : List (Value × Value)}
    (h : (Value.dict id xs).Matches M (.dict id' ys)) : List.Forall₂ (Entry.Matches M) xs ys := by
  cases h with
  | dict _ hk hv => exact forall₂_zip hk hv

theorem attributes {id id' : Nat} {type type' : String} {as bs : List (String × Value)}
    (h : (Value.object id type as).Matches M (.object id' type' bs)) :
    Table.Rel (Value.Matches M) (publicAttributes as) (publicAttributes bs) := by
  cases h with
  | object _ _ hn hv => exact .of_map hn hv

theorem fields {id id' : Nat} {type type' : String} {as bs : List (String × Value)}
    (h : (Value.record id type as).Matches M (.record id' type' bs)) :
    Table.Rel (Value.Matches M) as bs := by
  cases h with
  | record _ _ hn hv => exact .of_map hn hv

theorem typeName (h : v.Matches M w) : w.typeName = v.typeName := by
  cases h with
  | method m _ => cases m <;> rfl
  | _ => rfl

theorem isNull (h : v.Matches M w) : w.isNull = v.isNull := by
  cases h <;> rfl

theorem integer? (h : v.Matches M w) : w.integer? = v.integer? := by
  cases h <;> rfl

theorem double? (h : v.Matches M w) : w.double? = v.double? := by
  cases h <;> rfl

theorem numeric? (h : v.Matches M w) : w.numeric? = v.numeric? := by
  rw [Value.numeric?, Value.numeric?, h.integer?, h.double?]

/-- Matching values are one object on both sides, or two on both sides. -/
theorem same {v w v' w' : Value} (h : v.Matches M w) (h' : v'.Matches M w') :
    w.same w' = v.same v' := by
  cases h with
  | list h =>
    cases h' with
    | list h' => rw [Value.same, Value.same, Bool.eq_iff_iff, beq_iff_eq, beq_iff_eq, M.injective h h']
    | _ => rfl
  | method m h =>
    cases h' with
    | method m' h' => rw [Value.same, Value.same, same h h']
    | _ => rfl
  | _ => cases h' <;> rfl

end Value.Matches

/-! ## Stores -/

theorem forall₂_isEmpty {R : α → β → Prop} {as : List α} {bs : List β} (h : List.Forall₂ R as bs) :
    bs.isEmpty = as.isEmpty := by
  cases h <;> rfl

theorem Store.contents_of_le {s : Store} {i : ListId} (h : s.lists.size ≤ i.index) :
    s.contents i = [] := by
  rw [Store.contents, Array.getElem?_eq_none h]
  rfl

/-- Putting a value behind the others of a list changes what it holds. -/
theorem Store.push_eq (s : Store) (i : ListId) (v : Value) :
    s.push i v = s.setContents i (s.contents i ++ [v]) := by
  rw [Store.push, Store.setContents, Store.mk.injEq]
  refine ⟨Array.ext_getElem? fun n => ?_, rfl⟩
  rw [Array.getElem?_modify, Array.getElem?_setIfInBounds, Store.contents]
  by_cases hn : i.index = n
  · subst hn
    rw [if_pos rfl, if_pos rfl]
    by_cases hlt : i.index < s.lists.size
    · rw [if_pos hlt, Array.getElem?_eq_getElem hlt, Option.getD_some, ← Array.toList_push,
        Array.toArray_toList]
      rfl
    · rw [if_neg hlt, Array.getElem?_eq_none (Nat.le_of_not_lt hlt)]
      rfl
  · rw [if_neg hn, if_neg hn]

namespace Store.Matches

variable {M : Matching} {s t : Store} (h : s.Matches M t)

include h

theorem truthy {v w : Value} (hv : v.Matches M w) : t.truthy w = s.truthy v := by
  cases hv with
  | list hij => rw [Store.truthy, Store.truthy, forall₂_isEmpty (h.contents hij)]
  | tuple _ hvs => rw [Store.truthy, Store.truthy, forall₂_isEmpty hvs]
  | dict _ hk hv =>
    rw [Store.truthy, Store.truthy, forall₂_isEmpty (Value.Matches.entries (.dict 0 hk hv))]
  | _ => rfl

theorem setNumber (n : Nat) :
    ({ s with nextNumber := n } : Store).Matches M { t with nextNumber := n } where
  nextNumber := rfl
  made := h.made
  contents := h.contents

/-- Lists that go together are both there, or both are yet to be made. -/
theorem lt_iff {i j : ListId} (hij : M.lists i j) :
    i.index < s.lists.size ↔ j.index < t.lists.size := by
  obtain ⟨k, hs, ht⟩ := h.made
  rw [hs, ht]
  constructor
  · intro hi
    by_contra hj
    -- what is beyond the lists on the right goes together with what is beyond those on the left
    obtain ⟨n, hn⟩ := Nat.exists_eq_add_of_le (Nat.le_of_not_lt hj)
    have hi' := (M.injective hij (M.fresh (k + n))).mpr (by rw [← Nat.add_assoc, ← hn])
    rw [hi'] at hi
    dsimp only at hi
    omega
  · intro hj
    by_contra hi
    obtain ⟨n, hn⟩ := Nat.exists_eq_add_of_le (Nat.le_of_not_lt hi)
    have hj' := (M.injective hij (M.fresh (k + n))).mp (by rw [← Nat.add_assoc, ← hn])
    rw [hj'] at hj
    dsimp only at hj
    omega

theorem setContents {i j : ListId} (hij : M.lists i j) {vs ws : List Value}
    (hvs : List.Forall₂ (Value.Matches M) vs ws) :
    (s.setContents i vs).Matches M (t.setContents j ws) where
  nextNumber := h.nextNumber
  made := by
    simpa only [Store.setContents, Array.size_setIfInBounds] using h.made
  contents {i' j'} hij' := by
    by_cases hi : i' = i
    · have hj : j' = j := (M.injective hij' hij).mp hi
      subst hi hj
      by_cases hlt : i'.index < s.lists.size
      · rw [Store.contents_setContents _ _ _ hlt,
          Store.contents_setContents _ _ _ ((h.lt_iff hij).mp hlt)]
        exact hvs
      · have hlt' := mt (h.lt_iff hij).mpr hlt
        rw [Store.contents_of_le, Store.contents_of_le]
        · exact .nil
        · simpa [Store.setContents] using hlt'
        · simpa [Store.setContents] using hlt
    · have hj : j' ≠ j := fun hj => hi ((M.injective hij' hij).mpr hj)
      rw [Store.contents_setContents_of_ne _ _ _ _ hi, Store.contents_setContents_of_ne _ _ _ _ hj]
      exact h.contents hij'

theorem push {i j : ListId} (hij : M.lists i j) {v w : Value} (hv : v.Matches M w) :
    (s.push i v).Matches M (t.push j w) := by
  rw [Store.push_eq, Store.push_eq]
  exact h.setContents hij (List.rel_append (h.contents hij) (.cons hv .nil))

theorem newList {vs ws : List Value} (hvs : List.Forall₂ (Value.Matches M) vs ws) :
    (Value.list (s.newList vs).1).Matches M (.list (t.newList ws).1) ∧
      (s.newList vs).2.Matches M (t.newList ws).2 := by
  obtain ⟨k, hs, ht⟩ := h.made
  have hnew : M.lists (s.newList vs).1 (t.newList ws).1 := by
    rw [Store.newList, Store.newList, hs, ht]
    exact M.fresh k
  refine ⟨.list hnew, h.nextNumber, ⟨k + 1, ?_, ?_⟩, fun {i j} hij => ?_⟩
  · rw [Store.newList, Array.size_push, hs, Nat.add_assoc]
  · rw [Store.newList, Array.size_push, ht, Nat.add_assoc]
  · by_cases hi : i = (s.newList vs).1
    · have hj := (M.injective hij hnew).mp hi
      subst hi hj
      rw [Store.contents_newList, Store.contents_newList]
      exact hvs
    · have hj := mt (M.injective hij hnew).mpr hi
      by_cases hlt : i.index < s.lists.size
      · rw [Store.contents_newList_of_lt _ _ _ hlt,
          Store.contents_newList_of_lt _ _ _ ((h.lt_iff hij).mp hlt)]
        exact h.contents hij
      · have hlt' := mt (h.lt_iff hij).mpr hlt
        have hbeyond {u : Store} {us : List Value} {i : ListId} (hi : i ≠ (u.newList us).1)
            (hlt : ¬ i.index < u.lists.size) : (u.newList us).2.contents i = [] := by
          refine Store.contents_of_le ?_
          have hne : i.index ≠ u.lists.size := fun he => hi (by cases i; cases he; rfl)
          simp only [Store.newList, Array.size_push]
          omega
        rw [hbeyond hi hlt, hbeyond hj hlt']
        exact .nil

theorem newValue {value value' : Nat → Value} (hv : ∀ id, (value id).Matches M (value' id)) :
    (s.newValue value).1.Matches M (t.newValue value').1 ∧
      (s.newValue value).2.Matches M (t.newValue value').2 := by
  simp only [Store.newValue, Store.newNumber, h.nextNumber]
  exact ⟨hv _, h.setNumber _⟩

end Store.Matches

/-! ## Partial results -/

/-- Partial results that go together: both are there, related by `Q`, or neither, for one reason. -/
inductive Except.Rel (Q : α → β → Prop) : Except ε α → Except ε β → Prop
  | ok {a : α} {b : β} : Q a b → Except.Rel Q (.ok a) (.ok b)
  | error (e : ε) : Except.Rel Q (.error e) (.error e)

namespace Except.Rel

variable {Q : α → β → Prop}

protected theorem bind {Q' : γ → δ → Prop} {r : Except ε α} {r' : Except ε β} {k : α → Except ε γ}
    {l : β → Except ε δ} (h : Except.Rel Q r r') (hk : ∀ a b, Q a b → Except.Rel Q' (k a) (l b)) :
    Except.Rel Q' (r >>= k) (r' >>= l) := by
  cases h with
  | ok hab => exact hk _ _ hab
  | error e => exact .error e

theorem refl {Q : α → α → Prop} (hq : ∀ a, Q a a) (r : Except ε α) : Except.Rel Q r r := by
  cases r with
  | ok a => exact .ok (hq a)
  | error e => exact .error e

theorem of_eq {r r' : Except ε α} (h : r' = r) : Except.Rel Eq r r' := h ▸ .refl (fun _ => rfl) r

protected theorem eq {r r' : Except ε α} (h : Except.Rel Eq r r') : r' = r := by
  cases h with
  | ok h => rw [h]
  | error _ => rfl

end Except.Rel

/-! ## Computations -/

namespace Matching

variable (M : Matching) {Q : α → β → Prop}

theorem read {f : Store → Except Fault α} {g : Store → Except Fault β}
    (h : ∀ s t, s.Matches M t → Except.Rel Q (f s) (g t)) :
    Pairs Q (Store.Matches M) (Computation.read f) (Computation.read g) := by
  intro s t hs
  have hrel := h s t hs
  unfold Computation.read
  generalize f s = r, g t = r' at hrel
  cases hrel with
  | ok hab => exact .ok hab hs
  | error e => exact .error trivial hs

theorem ofExcept {r : Except Fault α} {r' : Except Fault β} (h : Except.Rel Q r r') :
    Pairs Q (Store.Matches M) (Computation.ofExcept r) (Computation.ofExcept r') :=
  M.read fun _ _ _ => h

theorem contents {i j : ListId} (h : M.lists i j) :
    Pairs (List.Forall₂ (Value.Matches M)) (Store.Matches M) (Computation.contents i)
      (Computation.contents j) := fun _ _ hs => .ok (hs.contents h) hs

theorem setContents {i j : ListId} (h : M.lists i j) {vs ws : List Value}
    (hvs : List.Forall₂ (Value.Matches M) vs ws) :
    Pairs (fun _ _ => True) (Store.Matches M) (Computation.setContents i vs)
      (Computation.setContents j ws) := fun _ _ hs => .ok trivial (hs.setContents h hvs)

theorem push {i j : ListId} (h : M.lists i j) {v w : Value} (hv : v.Matches M w) :
    Pairs (fun _ _ => True) (Store.Matches M) (Computation.push i v) (Computation.push j w) :=
  fun _ _ hs => .ok trivial (hs.push h hv)

theorem newList {vs ws : List Value} (h : List.Forall₂ (Value.Matches M) vs ws) :
    Pairs (Value.Matches M) (Store.Matches M) (Computation.newList vs) (Computation.newList ws) :=
  fun _ _ hs => .ok (hs.newList h).1 (hs.newList h).2

theorem newValue {value value' : Nat → Value} (h : ∀ id, (value id).Matches M (value' id)) :
    Pairs (Value.Matches M) (Store.Matches M) (modifyGet (·.newValue value) : Computation Value)
      (modifyGet (·.newValue value')) := fun _ _ hs => .ok (hs.newValue h).1 (hs.newValue h).2

theorem newFloat (x : Float) :
    Pairs (Value.Matches M) (Store.Matches M) (Computation.newFloat x) (Computation.newFloat x) :=
  M.newValue fun id => .float id x

/-- A value that is there already, or one with a number of its own. -/
theorem newUnless {p : Prop} [Decidable p] {v w : Value} {value value' : Nat → Value}
    (hv : v.Matches M w) (h : ∀ id, (value id).Matches M (value' id)) :
    Pairs (Value.Matches M) (Store.Matches M)
      (modifyGet fun s => if p then (v, s) else s.newValue value : Computation Value)
      (modifyGet fun s => if p then (w, s) else s.newValue value') := by
  by_cases hp : p
  · simp only [if_pos hp]
    exact fun _ _ hs => .ok hv hs
  · simp only [if_neg hp]
    exact M.newValue h

theorem newInt (n : Int) :
    Pairs (Value.Matches M) (Store.Matches M) (Computation.newInt n) (Computation.newInt n) :=
  M.newUnless (.int 0 n) fun id => .int id n

theorem newText (text : String) :
    Pairs (Value.Matches M) (Store.Matches M) (Computation.newText text)
      (Computation.newText text) :=
  M.newUnless (.text 0 text) fun id => .text id text

theorem newSpelling (text : String) :
    Pairs (Value.Matches M) (Store.Matches M) (Computation.newSpelling text)
      (Computation.newSpelling text) :=
  M.newUnless (.text 0 text) fun id => .text id text

theorem newTuple {vs ws : List Value} (h : List.Forall₂ (Value.Matches M) vs ws) :
    Pairs (Value.Matches M) (Store.Matches M) (Computation.newTuple vs)
      (Computation.newTuple ws) := by
  unfold Computation.newTuple Store.newTuple
  rw [forall₂_isEmpty h]
  exact M.newUnless (.tuple 0 .nil) fun id => .tuple id h

theorem shownBy? {v w : Value} (h : v.Matches M w) (text : String) :
    Option.Rel (Value.Matches M) (Computation.shownBy? v text) (Computation.shownBy? w text) := by
  cases h with
  | text id s => exact .some (.text id s)
  | bool _ => exact .some (.text 0 text)
  | object _ _ _ _ => exact .some (.text 0 text)
  | function id f =>
    cases f with
    | «include» => exact .some (.text 0 text)
    | _ => exact .none
  | _ => exact .none

theorem textOf {v w : Value} (h : v.Matches M w) (text : String) :
    Pairs (Value.Matches M) (Store.Matches M) (Computation.textOf v text)
      (Computation.textOf w text) := by
  have hshown := M.shownBy? h text
  unfold Computation.textOf
  generalize Computation.shownBy? v text = a, Computation.shownBy? w text = b at hshown
  cases hshown with
  | none => exact M.newSpelling text
  | some h => exact .pure h

/-- What was written to a sink, as a value. -/
theorem sinkValue {sink sink' : Sink} (ht : sink'.text = sink.text)
    (h : Option.Rel (Value.Matches M) sink.sole sink'.sole) :
    Pairs (Value.Matches M) (Store.Matches M) sink.value sink'.value := by
  unfold Sink.value
  rw [ht]
  generalize sink.sole = a, sink'.sole = b at h
  cases h with
  | none => exact M.newSpelling _
  | some h => exact M.textOf h _

end Matching

end Stencil
