import Stencil.Proofs.Privacy.Matching
import Stencil.Sorting

/-!
# Sorting what is related

A sort looks at its items through the comparison alone. Where the items of two lists are related one
by one, and related items compare alike, the sort makes the same comparisons on both sides: it fails
on both or on neither, and puts related items in the same places.
-/

namespace Stencil.Sorting

variable {α β γ ε σ τ : Type} {R : α → β → Prop}

theorem getLast?_rel {as : List α} {bs : List β} (h : List.Forall₂ R as bs) :
    Option.Rel R as.getLast? bs.getLast? := by
  rw [List.getLast?_eq_getElem?, List.getLast?_eq_getElem?, h.length_eq]
  exact getElem?_rel h _

/-! ## Searches -/

section Search

variable {test : α → Except ε Bool} {test' : β → Except ε Bool}
  (htest : ∀ a b, R a b → test' b = test a)

include htest

theorem countByHalves_rel (early : Bool) {as : List α} {bs : List β} (h : List.Forall₂ R as bs) :
    countByHalves early test' bs = countByHalves early test as := by
  fun_induction countByHalves early test as generalizing bs with
  | case1 as middle =>
    rename_i hdrop
    have hrel := List.forall₂_drop middle h
    rw [hdrop, List.forall₂_nil_left_iff] at hrel
    have hmiddle : middle = (bs.length - early.toNat) / 2 := by rw [← h.length_eq]
    rw [hmiddle] at hrel
    unfold countByHalves
    dsimp only
    split
    · rfl
    · next hdrop' => cases hrel.symm.trans hdrop'
  | case2 as middle x behind hdrop ih =>
    rename_i ih'
    have hrel := List.forall₂_drop middle h
    rw [hdrop] at hrel
    obtain ⟨y, behind', hxy, hbehind, hdrop'⟩ := List.forall₂_cons_left_iff.mp hrel
    have hmiddle : middle = (bs.length - early.toNat) / 2 := by rw [← h.length_eq]
    rw [hmiddle] at hdrop'
    rw [countByHalves]
    split
    · next hnil => cases hnil.symm.trans hdrop'
    · next hcons =>
      cases hcons.symm.trans hdrop'
      rw [htest _ _ hxy, ih hbehind, ← hmiddle, ih' (List.forall₂_take _ h)]

theorem gallopFrom_rel (early : Bool) (fuel passed : Nat) {as : List α} {bs : List β}
    (h : List.Forall₂ R as bs) :
    gallopFrom early test' fuel passed bs = gallopFrom early test fuel passed as := by
  induction fuel generalizing passed as bs with
  | zero => rfl
  | succ fuel ih =>
    have hrel := List.forall₂_drop (passed - 1) h
    unfold gallopFrom
    rw [countByHalves_rel htest early h,
      countByHalves_rel htest early (List.forall₂_take (passed - 1) h)]
    generalize as.drop (passed - 1) = xs, bs.drop (passed - 1) = ys at hrel
    cases hrel with
    | nil => rfl
    | cons hxy hbehind =>
      dsimp only
      rw [htest _ _ hxy, ih _ hbehind]

theorem gallop_rel (early : Bool) {as : List α} {bs : List β} (h : List.Forall₂ R as bs) :
    gallop early test' bs = gallop early test as := by
  have hlength := h.length_eq
  cases h with
  | nil => rfl
  | cons hxy hbehind =>
    unfold gallop
    dsimp only
    rw [htest _ _ hxy, ← hlength, gallopFrom_rel htest early _ _ hbehind]

end Search

/-! ## Merges -/

/-- Merges under way of related runs. -/
structure Merge.Rel (R : α → β → Prop) (m : Merge α) (n : Merge β) : Prop where
  merged : List.Forall₂ R m.merged n.merged
  held : List.Forall₂ R m.held n.held
  other : List.Forall₂ R m.other n.other
  patience : n.patience = m.patience

/-- Comparisons that answer the same where their items are related. -/
def Less.Rel (R : α → β → Prop) (less : Less α ε) (less' : Less β ε) : Prop :=
  ∀ a b x y, R a b → R x y → less' b y = less a x

theorem modify_pairs {P : σ → τ → Prop} {f : σ → σ} {g : τ → τ} (h : ∀ s t, P s t → P (f s) (g t)) :
    Pairs (fun _ _ => True) P (modify f : EStateM ε σ Unit) (modify g) :=
  fun s t hs => .ok trivial (h s t hs)

namespace Merging

variable {wins : Less α ε} {wins' : Less β ε} (hwins : wins.Rel R wins')

theorem ask_pairs {answer answer' : Except ε γ} (h : answer' = answer) :
    Pairs Eq (Merge.Rel R) (ask answer : Merging α ε γ) (ask answer') := by
  subst h
  cases answer' with
  | ok c => exact .pure rfl
  | error e => exact .throw trivial

theorem checkHeld_pairs : Pairs (fun _ _ => True) (Merge.Rel R) (checkHeld : Merging α ε Unit)
    (checkHeld : Merging β ε Unit) := by
  refine PairsWith.get fun m n hm => ?_
  have hheld := hm.held
  generalize m.held = xs, n.held = ys at hheld
  cases hheld with
  | nil => exact .error trivial hm
  | cons hx hrest =>
    cases hrest with
    | nil =>
      exact .error trivial
        ⟨List.rel_append (List.rel_reverse hm.other) hm.merged, hm.held, .nil, hm.patience⟩
    | cons _ _ => exact .ok trivial hm

theorem checkOther_pairs : Pairs (fun _ _ => True) (Merge.Rel R) (checkOther : Merging α ε Unit)
    (checkOther : Merging β ε Unit) := by
  refine PairsWith.get fun m n hm => ?_
  have hother := hm.other
  generalize m.other = xs, n.other = ys at hother
  cases hother with
  | nil => exact .error trivial hm
  | cons _ _ => exact .ok trivial hm

theorem takeHeld_pairs (count : Nat) : Pairs (fun _ _ => True) (Merge.Rel R)
    (takeHeld count : Merging α ε Unit) (takeHeld count : Merging β ε Unit) :=
  (modify_pairs fun _ _ hm =>
    ⟨List.rel_append (List.rel_reverse (List.forall₂_take count hm.held)) hm.merged,
      List.forall₂_drop count hm.held, hm.other, hm.patience⟩).bind fun _ _ _ => checkHeld_pairs

theorem takeOther_pairs (count : Nat) : Pairs (fun _ _ => True) (Merge.Rel R)
    (takeOther count : Merging α ε Unit) (takeOther count : Merging β ε Unit) :=
  (modify_pairs fun _ _ hm =>
    ⟨List.rel_append (List.rel_reverse (List.forall₂_take count hm.other)) hm.merged, hm.held,
      List.forall₂_drop count hm.other, hm.patience⟩).bind fun _ _ _ => checkOther_pairs

include hwins

theorem takeSingly_pairs (fuel heldWins otherWins : Nat) : Pairs (fun _ _ => True) (Merge.Rel R)
    (takeSingly wins fuel heldWins otherWins) (takeSingly wins' fuel heldWins otherWins) := by
  induction fuel generalizing heldWins otherWins with
  | zero => exact .pure trivial
  | succ fuel ih =>
    unfold takeSingly
    refine PairsWith.get fun m n hm => ?_
    have hheld := hm.held
    have hother := hm.other
    rw [hm.patience]
    generalize m.held = xs, n.held = ys at hheld
    generalize m.other = xs', n.other = ys' at hother
    cases hheld with
    | nil => exact .ok trivial hm
    | cons hx _ =>
      cases hother with
      | nil => exact .ok trivial hm
      | cons hy _ =>
        refine (ask_pairs (hwins _ _ _ _ hy hx)).bind (fun b b' hb => ?_) m n hm
        subst hb
        split
        · refine (takeOther_pairs 1).bind fun _ _ _ => ?_
          split
          · exact ih 0 _
          · exact .pure trivial
        · refine (takeHeld_pairs 1).bind fun _ _ _ => ?_
          split
          · exact ih _ 0
          · exact .pure trivial

theorem gallopHeld_pairs (side : Side) :
    Pairs Eq (Merge.Rel R) (gallopHeld side wins) (gallopHeld side wins') := by
  refine PairsWith.get fun m n hm => ?_
  have hheld := hm.held
  have hother := hm.other
  generalize m.other = xs, n.other = ys at hother
  cases hother with
  | nil => exact .ok rfl hm
  | @cons y z _ _ hy _ =>
    have htest (a : α) (b : β) (hab : R a b) :
        (do return !(← wins' z b) : Except ε Bool) = do return !(← wins y a) := by
      rw [hwins _ _ _ _ hy hab]
    refine (ask_pairs (gallop_rel htest _ hheld)).bind (fun count count' hcount => ?_) m n hm
    subst hcount
    exact (takeHeld_pairs count).bind fun _ _ _ => (takeOther_pairs 1).bind fun _ _ _ => .pure rfl

theorem gallopOther_pairs (side : Side) :
    Pairs Eq (Merge.Rel R) (gallopOther side wins) (gallopOther side wins') := by
  refine PairsWith.get fun m n hm => ?_
  have hheld := hm.held
  have hother := hm.other
  generalize m.held = xs, n.held = ys at hheld
  cases hheld with
  | nil => exact .ok rfl hm
  | @cons x z _ _ hx _ =>
    refine (ask_pairs (gallop_rel (fun a b hab => hwins _ _ _ _ hab hx) _ hother)).bind
      (fun count count' hcount => ?_) m n hm
    subst hcount
    exact (takeOther_pairs count).bind fun _ _ _ => (takeHeld_pairs 1).bind fun _ _ _ => .pure rfl

theorem gallopOn_pairs (side : Side) (fuel : Nat) :
    Pairs (fun _ _ => True) (Merge.Rel R) (gallopOn side wins fuel) (gallopOn side wins' fuel) := by
  induction fuel with
  | zero => exact .pure trivial
  | succ fuel ih =>
    have hnext (first second : Nat) : Pairs (fun _ _ => True) (Merge.Rel R)
        (if leastWins ≤ first || leastWins ≤ second then do
          modify fun m => { m with patience := max 1 (m.patience - 1) }
          gallopOn side wins fuel
        else modify fun m => { m with patience := m.patience + 1 })
        (if leastWins ≤ first || leastWins ≤ second then do
          modify fun m => { m with patience := max 1 (m.patience - 1) }
          gallopOn side wins' fuel
        else modify fun m => { m with patience := m.patience + 1 }) := by
      split
      · exact (modify_pairs fun _ _ hm =>
          ⟨hm.merged, hm.held, hm.other, by rw [hm.patience]⟩).bind fun _ _ _ => ih
      · exact modify_pairs fun _ _ hm => ⟨hm.merged, hm.held, hm.other, by rw [hm.patience]⟩
    cases side with
    | front =>
      exact (gallopHeld_pairs hwins _).bind fun first _ hfirst =>
        (gallopOther_pairs hwins _).bind fun second _ hsecond =>
          hfirst ▸ hsecond ▸ hnext first second
    | back =>
      exact (gallopOther_pairs hwins _).bind fun first _ hfirst =>
        (gallopHeld_pairs hwins _).bind fun second _ hsecond =>
          hfirst ▸ hsecond ▸ hnext first second

theorem takeAll_pairs (side : Side) (fuel : Nat) :
    Pairs (fun _ _ => True) (Merge.Rel R) (takeAll side wins fuel) (takeAll side wins' fuel) := by
  induction fuel with
  | zero => exact .pure trivial
  | succ fuel ih =>
    unfold takeAll
    refine PairsWith.get fun m n hm => ?_
    rw [hm.held.length_eq, hm.other.length_eq]
    exact ((takeSingly_pairs hwins _ _ _).bind fun _ _ _ =>
      (gallopOn_pairs hwins side _).bind fun _ _ _ => ih) m n hm

theorem start_pairs (side : Side) :
    Pairs (fun _ _ => True) (Merge.Rel R) (start side wins) (start side wins') := by
  refine (takeOther_pairs 1).bind fun _ _ _ => checkHeld_pairs.bind fun _ _ _ => ?_
  refine PairsWith.get fun m n hm => ?_
  rw [hm.held.length_eq]
  exact takeAll_pairs hwins side _ m n hm

end Merging

/-- Related items, with one patience and one failure. -/
structure Joined.Rel (R : α → β → Prop) (j : Joined α ε) (k : Joined β ε) : Prop where
  items : List.Forall₂ R j.items k.items
  patience : k.patience = j.patience
  failure : k.failure = j.failure

section Join

variable {less : Less α ε} {less' : Less β ε} (hless : less.Rel R less')

include hless

theorem mergeFrom_rel (side : Side) (patience : Nat) {left right : List α} {left' right' : List β}
    (hl : List.Forall₂ R left left') (hr : List.Forall₂ R right right') :
    (mergeFrom side less patience left right).Rel R (mergeFrom side less' patience left' right') := by
  have hitems {m : Merge α} {n : Merge β} (hm : m.Rel R n) : List.Forall₂ R m.items n.items :=
    List.rel_append (List.rel_reverse hm.merged) (List.rel_append hm.held hm.other)
  cases side with
  | front =>
    have hstart := Merging.start_pairs hless .front { held := left, other := right, patience }
      { held := left', other := right', patience } ⟨.nil, hl, hr, rfl⟩
    unfold mergeFrom
    dsimp only
    generalize Merging.start _ less _ = r, Merging.start _ less' _ = r' at hstart
    cases hstart with
    | ok _ hm => exact ⟨hitems hm, hm.patience, rfl⟩
    | @error x _ _ _ hm => cases x <;> exact ⟨hitems hm, hm.patience, rfl⟩
  | back =>
    have hswapped : Less.Rel R (fun y x => less x y) (fun y x => less' x y) :=
      fun _ _ _ _ h h' => hless _ _ _ _ h' h
    have hstart := Merging.start_pairs hswapped .back
      { held := right.reverse, other := left.reverse, patience }
      { held := right'.reverse, other := left'.reverse, patience }
      ⟨.nil, List.rel_reverse hr, List.rel_reverse hl, rfl⟩
    unfold mergeFrom
    dsimp only
    generalize Merging.start _ _ _ = r, Merging.start _ (fun y x => less' x y) _ = r' at hstart
    cases hstart with
    | ok _ hm => exact ⟨List.rel_reverse (hitems hm), hm.patience, rfl⟩
    | @error x _ _ _ hm => cases x <;> exact ⟨List.rel_reverse (hitems hm), hm.patience, rfl⟩

theorem settled_rel {left right : List α} {left' right' : List β}
    (hl : List.Forall₂ R left left') (hr : List.Forall₂ R right right') :
    settled less' left' right' = settled less left right := by
  cases hr with
  | nil =>
    unfold settled
    rw [List.head?_nil, List.head?_nil, hl.length_eq]
  | @cons least least' rest rest' hleast hrest =>
    have hbefore : gallop false (fun x => do return !(← less' least' x)) left' =
        gallop false (fun x => do return !(← less least x)) left :=
      gallop_rel (fun a b hab => by rw [hless _ _ _ _ hleast hab]) false hl
    unfold settled
    rw [List.head?_cons, List.head?_cons]
    dsimp only
    rw [hbefore]
    refine bind_congr fun before => ?_
    have hlast := getLast?_rel (List.forall₂_drop before hl)
    generalize (left.drop before).getLast? = x, (left'.drop before).getLast? = y at hlast
    cases hlast with
    | none => rfl
    | @some greatest greatest' hgreatest =>
      have hbehind : gallop true (fun y => do return !(← less' y greatest'))
            (least' :: rest').reverse =
          gallop true (fun y => do return !(← less y greatest)) (least :: rest).reverse :=
        gallop_rel (fun a b hab => by rw [hless _ _ _ _ hab hgreatest]) true
          (List.rel_reverse (.cons hleast hrest))
      dsimp only
      rw [hbehind]

theorem join_rel (patience : Nat) {left right : List α} {left' right' : List β}
    (hl : List.Forall₂ R left left') (hr : List.Forall₂ R right right') :
    (join less patience left right).Rel R (join less' patience left' right') := by
  have hwhole (failure : Option ε) : Joined.Rel R ⟨left ++ right, patience, failure⟩
      ⟨left' ++ right', patience, failure⟩ := ⟨List.rel_append hl hr, rfl, rfl⟩
  unfold join
  rw [settled_rel hless hl hr]
  cases settled less left right with
  | error e => exact hwhole (some e)
  | ok counts =>
    obtain ⟨before, behind⟩ := counts
    have hfirst := List.forall₂_drop before hl
    have hsecond := List.forall₂_take (right.length - behind) hr
    have hbehind := List.forall₂_drop (right.length - behind) hr
    dsimp only
    rw [← hr.length_eq, forall₂_isEmpty hfirst, forall₂_isEmpty hsecond, ← hfirst.length_eq,
      ← hsecond.length_eq]
    split
    · exact hwhole none
    · have hmerged := mergeFrom_rel hless
        (if (left.drop before).length ≤ (right.take (right.length - behind)).length then .front
          else .back) patience hfirst hsecond
      exact ⟨List.rel_append (List.forall₂_take before hl) (List.rel_append hmerged.items hbehind),
        hmerged.patience, hmerged.failure⟩

end Join

/-! ## Runs -/

/-- Runs of related items in the same place. -/
structure Run.Rel (R : α → β → Prop) (r : Run α) (q : Run β) : Prop where
  start : q.start = r.start
  items : List.Forall₂ R r.items q.items
  power : q.power = r.power

/-- Sorts under way of related items. -/
structure Progress.Rel (R : α → β → Prop) (p : Progress α) (q : Progress β) : Prop where
  runs : List.Forall₂ (Run.Rel R) p.runs q.runs
  rest : List.Forall₂ R p.rest q.rest
  patience : q.patience = p.patience

theorem mergePower_rel (total length : Nat) {r : Run α} {q : Run β} (h : Run.Rel R r q) :
    mergePower total q length = mergePower total r length := by
  rw [mergePower, mergePower, h.start, h.items.length_eq]

theorem Progress.Rel.items {p : Progress α} {q : Progress β} (h : Progress.Rel R p q) :
    List.Forall₂ R p.items q.items :=
  List.rel_append (List.rel_flatMap (List.rel_reverse h.runs) fun _ _ hr => hr.items) h.rest

section Sorts

variable {less : Less α ε} {less' : Less β ε} (hless : less.Rel R less')

include hless

theorem runLength_rel (falling : Bool) {a : α} {b : β} (hab : R a b) {as : List α} {bs : List β}
    (h : List.Forall₂ R as bs) : runLength less' falling b bs = runLength less falling a as := by
  induction h generalizing a b with
  | nil => rfl
  | cons hx _ ih => rw [runLength, runLength, hless _ _ _ _ hx hab, ih hx]

theorem firstRun_rel {as : List α} {bs : List β} (h : List.Forall₂ R as bs) :
    firstRun less' bs = firstRun less as := by
  cases h with
  | nil => rfl
  | cons hx h =>
    cases h with
    | nil => rfl
    | cons hy h =>
      unfold firstRun
      dsimp only
      rw [hless _ _ _ _ hy hx]
      refine bind_congr fun falling => ?_
      rw [runLength_rel hless falling hy h]

namespace Sorter

omit hless in
theorem ask_pairs {answer answer' : Except ε γ} (h : answer' = answer) :
    Pairs Eq (Progress.Rel R) (ask answer : Sorter α ε γ) (ask answer') := by
  subst h
  cases answer' with
  | ok c => exact .pure rfl
  | error e => exact .throw trivial

theorem insertNext_pairs (count : Nat) {as : List α} {bs : List β} (h : List.Forall₂ R as bs) :
    Pairs (List.Forall₂ R) (Progress.Rel R) (insertNext less count as)
      (insertNext less' count bs) := by
  induction count generalizing as bs with
  | zero => exact .pure h
  | succ count ih =>
    unfold insertNext
    refine PairsWith.get fun p q hp => ?_
    have hrest := List.forall₂_drop as.length hp.rest
    rw [← h.length_eq]
    generalize p.rest.drop as.length = xs, q.rest.drop as.length = ys at hrest
    cases hrest with
    | nil => exact .ok h hp
    | @cons x y _ _ hx hbehind =>
      refine (ask_pairs (countByHalves_rel (fun a b hab => ?_) false h)).bind
        (fun place place' hplace => ?_) p q hp
      · rw [hless _ _ _ _ hx hab]
      · subst hplace
        have hsorted := List.rel_append (List.forall₂_take place h)
          (.cons hx (List.forall₂_drop place h))
        exact (modify_pairs fun _ _ hp =>
          ⟨hp.runs, List.rel_append hsorted hbehind, hp.patience⟩).bind fun _ _ _ => ih hsorted

theorem takeRun_pairs (least : Nat) :
    Pairs (List.Forall₂ R) (Progress.Rel R) (takeRun less least) (takeRun less' least) := by
  refine PairsWith.get fun p q hp => ?_
  have hrest := hp.rest
  generalize p.rest = xs, q.rest = ys at hrest
  refine (ask_pairs (firstRun_rel hless hrest)).bind (fun first first' hfirst => ?_) p q hp
  subst hfirst
  obtain ⟨falling, length⟩ := first
  have htaken := List.forall₂_take length hrest
  have hrun : List.Forall₂ R (if falling then (xs.take length).reverse else xs.take length)
      (if falling then (ys.take length).reverse else ys.take length) := by
    split
    · exact List.rel_reverse htaken
    · exact htaken
  exact (modify_pairs fun _ _ hp =>
    ⟨hp.runs, List.rel_append hrun (List.forall₂_drop length hrest), hp.patience⟩).bind
      fun _ _ _ => insertNext_pairs hless _ hrun

theorem mergePair_pairs {behind before : List (Run α)} {behind' before' : List (Run β)}
    (hbehind : List.Forall₂ (Run.Rel R) behind behind')
    (hbefore : List.Forall₂ (Run.Rel R) before before') {right left : Run α} {right' left' : Run β}
    (hright : Run.Rel R right right') (hleft : Run.Rel R left left') :
    Pairs (fun _ _ => True) (Progress.Rel R) (mergePair less behind right left before)
      (mergePair less' behind' right' left' before') := by
  refine PairsWith.get fun p q hp => ?_
  rw [hp.patience]
  have hjoined := join_rel hless p.patience hleft.items hright.items
  generalize join less p.patience left.items right.items = j,
    join less' p.patience left'.items right'.items = k at hjoined
  refine ((modify_pairs fun _ _ hp => ⟨List.rel_append hbehind
    (.cons ⟨hleft.start, hjoined.items, hleft.power⟩ hbefore), hp.rest, hjoined.patience⟩).bind
      fun _ _ _ => ?_) p q hp
  rw [hjoined.failure]
  cases j.failure with
  | none => exact .pure trivial
  | some e => exact .throw trivial

theorem mergeAbove_pairs (power fuel : Nat) :
    Pairs (fun _ _ => True) (Progress.Rel R) (mergeAbove less power fuel)
      (mergeAbove less' power fuel) := by
  induction fuel with
  | zero => exact .pure trivial
  | succ fuel ih =>
    unfold mergeAbove
    refine PairsWith.get fun p q hp => ?_
    have hruns := hp.runs
    generalize p.runs = xs, q.runs = ys at hruns
    cases hruns with
    | nil => exact .ok trivial hp
    | cons hright hruns =>
      cases hruns with
      | nil => exact .ok trivial hp
      | cons hleft hbefore =>
        dsimp only
        rw [hleft.power]
        split
        · exact ((mergePair_pairs hless .nil hbefore hright hleft).bind fun _ _ _ => ih) p q hp
        · exact .ok trivial hp

theorem addRun_pairs (total : Nat) {as : List α} {bs : List β} (h : List.Forall₂ R as bs) :
    Pairs (fun _ _ => True) (Progress.Rel R) (addRun less total as) (addRun less' total bs) := by
  refine PairsWith.get fun p q hp => ?_
  have hruns := hp.runs
  generalize p.runs = xs, q.runs = ys at hruns
  cases hruns with
  | nil => exact .ok trivial hp
  | @cons last last' before before' hlast hbefore =>
    dsimp only
    rw [← h.length_eq, ← hbefore.length_eq, mergePower_rel total as.length hlast]
    refine ((mergeAbove_pairs hless _ _).bind fun _ _ _ => modify_pairs fun p q hp => ?_) p q hp
    obtain ⟨runs, rest, patience⟩ := p
    obtain ⟨runs', rest', patience'⟩ := q
    obtain ⟨hruns, hrest, hpatience⟩ := hp
    cases hruns with
    | nil => exact ⟨.nil, hrest, hpatience⟩
    | cons hlast hbefore => exact ⟨.cons ⟨hlast.start, hlast.items, rfl⟩ hbefore, hrest, hpatience⟩

theorem takeRuns_pairs (total least fuel start : Nat) :
    Pairs (fun _ _ => True) (Progress.Rel R) (takeRuns less total least fuel start)
      (takeRuns less' total least fuel start) := by
  induction fuel generalizing start with
  | zero => exact .pure trivial
  | succ fuel ih =>
    unfold takeRuns
    refine PairsWith.get fun p q hp => ?_
    rw [forall₂_isEmpty hp.rest]
    split
    · exact .ok trivial hp
    · refine ((takeRun_pairs hless least).bind fun items items' hitems => ?_) p q hp
      refine (addRun_pairs hless total hitems).bind fun _ _ _ => ?_
      rw [← hitems.length_eq]
      exact (modify_pairs fun _ _ hp => ⟨.cons ⟨rfl, hitems, rfl⟩ hp.runs,
        List.forall₂_drop _ hp.rest, hp.patience⟩).bind fun _ _ _ => ih _

theorem mergeAll_pairs (fuel : Nat) :
    Pairs (fun _ _ => True) (Progress.Rel R) (mergeAll less fuel) (mergeAll less' fuel) := by
  induction fuel with
  | zero => exact .pure trivial
  | succ fuel ih =>
    unfold mergeAll
    refine PairsWith.get fun p q hp => ?_
    have hruns := hp.runs
    generalize p.runs = xs, q.runs = ys at hruns
    cases hruns with
    | nil => exact .ok trivial hp
    | cons hlast hruns =>
      cases hruns with
      | nil => exact .ok trivial hp
      | cons hright hruns =>
        cases hruns with
        | nil => exact mergePair_pairs hless .nil .nil hlast hright p q hp
        | cons hleft hbefore =>
          dsimp only
          rw [← hleft.items.length_eq, ← hlast.items.length_eq]
          split
          · exact ((mergePair_pairs hless (.cons hlast .nil) hbefore hright hleft).bind
              fun _ _ _ => ih) p q hp
          · exact ((mergePair_pairs hless .nil (.cons hleft hbefore) hlast hright).bind
              fun _ _ _ => ih) p q hp

end Sorter

/-- Related items are sorted alike, and with the same failure. -/
theorem sort_rel {as : List α} {bs : List β} (h : List.Forall₂ R as bs) :
    List.Forall₂ R (sort less as).1 (sort less' bs).1 ∧ (sort less' bs).2 = (sort less as).2 := by
  unfold sort
  rw [← h.length_eq]
  split
  · exact ⟨h, rfl⟩
  · have hall := ((Sorter.takeRuns_pairs hless as.length (leastRun as.length) as.length 0).bind
      fun _ _ _ => Sorter.mergeAll_pairs hless as.length) { rest := as } { rest := bs }
        ⟨.nil, h, rfl⟩
    have hrun : Paired (fun _ => True) (fun _ _ => True) (Progress.Rel R)
      (Sorter.all less as.length { rest := as }) (Sorter.all less' as.length { rest := bs }) := hall
    generalize Sorter.all less as.length _ = r, Sorter.all less' as.length _ = r' at hrun
    cases hrun with
    | ok _ hp => exact ⟨hp.items, rfl⟩
    | error _ hp => exact ⟨hp.items, rfl⟩

end Sorts

end Stencil.Sorting
