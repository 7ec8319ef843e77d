import Stencil.Proofs.Concatenation

/-!
# Numbers of trees that are alike

The literals of a tree are numbered from left to right. Trees that are the same up to their
places get the same numbers (`Node.Like.numbered`), and statements behind each other get
them one after the other (`numberedNodes_append`). So the statements of two sources behind
each other keep their numbers, if those of the second source begin where those of the
first one stop (`NodesJoin.numbered`).
-/

namespace Stencil

open Grammar

variable {α β γ δ : Type} {placed : Prop}

/-- From the same number, two runs come to related things and the same number, which is
no less. -/
def Numbers (P : α → β → Prop) (x : StateM Nat α) (y : StateM Nat β) : Prop :=
  ∀ n, P (x n).1 (y n).1 ∧ (x n).2 = (y n).2 ∧ n ≤ (x n).2

namespace Numbers

variable {P : α → β → Prop} {Q : γ → δ → Prop}

protected theorem pure {a : α} {b : β} (h : P a b) :
    Numbers P (pure a : StateM Nat α) (pure b) := fun n => ⟨h, rfl, Nat.le_refl n⟩

protected theorem bind {x : StateM Nat α} {y : StateM Nat β} {f : α → StateM Nat γ}
    {g : β → StateM Nat δ} (h : Numbers P x y) (hf : ∀ a b, P a b → Numbers Q (f a) (g b)) :
    Numbers Q (x >>= f) (y >>= g) := by
  intro n
  obtain ⟨hP, hn, hle⟩ := h n
  obtain ⟨hQ, hm, hle'⟩ := hf _ _ hP (x n).2
  have hy : (y >>= g) n = g (y n).1 (x n).2 := by
    rw [hn]
    rfl
  rw [hy]
  exact ⟨hQ, hm, Nat.le_trans hle hle'⟩

theorem next : Numbers Eq nextNumber nextNumber := fun n => ⟨rfl, rfl, Nat.le_succ n⟩

/-- A run that does not give numbers back. -/
theorem value (v : Value) : Numbers Eq v.numbered v.numbered := by
  have hnext (f : Nat → Value) : Numbers Eq (do return f (← nextNumber)) (do return f (← nextNumber)) :=
    next.bind fun _ _ h => .pure (congrArg f h)
  unfold Value.numbered
  split
  · split
    · exact .pure rfl
    · exact hnext _
  · exact hnext _
  · split
    · exact .pure rfl
    · exact hnext _
  · exact .pure rfl

end Numbers

mutual

/-- Trees that are alike get the same numbers. -/
theorem Node.Like.numbered : ∀ {node node' : Node}, node.Like placed node' →
    Numbers (Node.Like placed) node.numbered node'.numbered
  | .absent, _, .absent => .pure .absent
  | .page .., _, .page hp hb hf =>
    hb.numbered.bind fun _ _ hb => hf.numbered.bind fun _ _ hf => .pure (.page hp hb hf)
  | .block .., _, .block hp hb => hb.numbered.bind fun _ _ hb => .pure (.block hp hb)
  | .text _ value id, _, .text hp => by
    unfold Node.numbered
    split
    · refine Numbers.next.bind fun m _ hm => ?_
      subst hm
      exact .pure (.text hp)
    · exact .pure (.text hp)
  | .expression .., _, .expression hp hv => hv.numbered.bind fun _ _ hv => .pure (.expression hp hv)
  | .assign .., _, .assign hp hv => hv.numbered.bind fun _ _ hv => .pure (.assign hp hv)
  | .branch .., _, .branch hp ht hb ho =>
    ht.numbered.bind fun _ _ ht => hb.numbered.bind fun _ _ hb => ho.numbered.bind fun _ _ ho =>
      .pure (.branch hp ht hb ho)
  | .loop .., _, .loop hp hs hb =>
    hs.numbered.bind fun _ _ hs => hb.numbered.bind fun _ _ hb => .pure (.loop hp hs hb)
  | .const _ value, _, .const hp => (Numbers.value value).bind fun v _ hv => by
    subst hv
    exact .pure (.const hp)
  | .name .., _, .name hp => .pure (.name hp)
  | .argument .., _, .argument hp => .pure (.argument hp)
  | .argumentAt .., _, .argumentAt hp => .pure (.argumentAt hp)
  | .list .., _, .list hp hi => hi.numbered.bind fun _ _ hi => .pure (.list hp hi)
  | .member .., _, .member hp ho => ho.numbered.bind fun _ _ ho => .pure (.member hp ho)
  | .item .., _, .item hp ho hk =>
    ho.numbered.bind fun _ _ ho => hk.numbered.bind fun _ _ hk => .pure (.item hp ho hk)
  | .call .., _, .call hp hc ha =>
    hc.numbered.bind fun _ _ hc => ha.numbered.bind fun _ _ ha => .pure (.call hp hc ha)
  | .unary .., _, .unary hp ho => ho.numbered.bind fun _ _ ho => .pure (.unary hp ho)
  | .arithmetic .., _, .arithmetic hp hl hr =>
    hl.numbered.bind fun _ _ hl => hr.numbered.bind fun _ _ hr => .pure (.arithmetic hp hl hr)
  | .compare .., _, .compare hp hl hr =>
    hl.numbered.bind fun _ _ hl => hr.numbered.bind fun _ _ hr => .pure (.compare hp hl hr)
  | .logic .., _, .logic hp hl hr =>
    hl.numbered.bind fun _ _ hl => hr.numbered.bind fun _ _ hr => .pure (.logic hp hl hr)
  | .custom .., _, .custom hp => .pure (.custom hp)
  | .foreign .., _, .foreign hp => .pure (.foreign hp)
  | .unknownOperator .., _, .unknownOperator hp hl hr =>
    hl.numbered.bind fun _ _ hl => hr.numbered.bind fun _ _ hr => .pure (.unknownOperator hp hl hr)

theorem NodesLike.numbered : ∀ {nodes nodes' : List Node}, NodesLike placed nodes nodes' →
    Numbers (NodesLike placed) (numberedNodes nodes) (numberedNodes nodes')
  | [], _, .nil => .pure .nil
  | _ :: _, _, .cons hn hr =>
    hn.numbered.bind fun _ _ hn => hr.numbered.bind fun _ _ hr => .pure (.cons hn hr)

end

/-! ## Statements behind each other -/

/-- Statements behind each other are numbered one after the other. -/
theorem numberedNodes_append (as bs : List Node) (n : Nat) :
    (numberedNodes (as ++ bs) n).1 =
      (numberedNodes as n).1 ++ (numberedNodes bs (numberedNodes as n).2).1 := by
  induction as generalizing n with
  | nil => rfl
  | cons a as ih => exact congrArg ((a.numbered n).1 :: ·) (ih (a.numbered n).2)

theorem le_numberedNodes (nodes : List Node) (n : Nat) : n ≤ (numberedNodes nodes n).2 := by
  have hlike : NodesLike False nodes nodes := .refl nodes
  exact (hlike.numbered n).2.2

/-- A text of which there is only one object takes no number. -/
theorem numberedNodes_shared {value : String} (h : isSharedText value = true) (span : Span)
    (nodes : List Node) (n : Nat) :
    (numberedNodes (.text span value :: nodes) n).1 =
      .text span value :: (numberedNodes nodes n).1 := by
  have hnode : Node.numbered (.text span value) = (pure (.text span value) : StateM Nat Node) := by
    simp only [Node.numbered, h, Bool.not_true, Bool.and_false, Bool.false_eq_true, if_false]
  rw [numberedNodes, hnode]
  rfl

theorem numberedNodes_own {value : String} (h : isSharedText value = false) (span : Span)
    (nodes : List Node) (n : Nat) : (numberedNodes (.text span value :: nodes) n).1 =
      .text span value n :: (numberedNodes nodes (n + 1)).1 := by
  have hnode : Node.numbered (.text span value) =
      (do return .text span value (← nextNumber) : StateM Nat Node) := by
    simp only [Node.numbered, h, Bool.not_false, Bool.and_true, decide_true, if_true]
  rw [numberedNodes, hnode]
  rfl

theorem isSharedText_append {a b : List Char} (ha : a ≠ []) (hb : b ≠ []) :
    isSharedText (String.ofList (a ++ b)) = false := by
  obtain ⟨c, cs, rfl⟩ := List.exists_cons_of_ne_nil ha
  obtain ⟨d, ds, rfl⟩ := List.exists_cons_of_ne_nil hb
  rw [isSharedText, String.toList_ofList]
  cases cs <;> exact Bool.and_false _

/-- Statements behind each other keep their numbers, if those of the second ones begin at the
right one. -/
theorem Grammar.NodesJoin.numbered {as bs nodes : List Node} (h : NodesJoin True as bs nodes)
    (n : Nat) : ∃ m, n ≤ m ∧
      NodesJoin False (numberedNodes as n).1 (numberedNodes bs m).1 (numberedNodes nodes n).1 := by
  cases h with
  | behind hlike =>
    refine ⟨(numberedNodes as n).2, le_numberedNodes as n, .behind ?_⟩
    rw [← numberedNodes_append]
    exact (hlike.numbered n).1
  | @merged as bs _ span span' place a b i j k ha hb hfresh hlike =>
    obtain ⟨rfl, rfl⟩ := hfresh trivial
    have hle := le_numberedNodes as n
    have hnodes := (hlike.numbered n).1
    rw [numberedNodes_append, numberedNodes_own (isSharedText_append ha hb)] at hnodes
    -- the text that goes on takes a number, and so may the second of its parts
    obtain ⟨id, hlast⟩ : ∃ id, (numberedNodes (as ++ [.text span (String.ofList a) i]) n).1 =
        (numberedNodes as n).1 ++ [.text span (String.ofList a) id] := by
      rw [numberedNodes_append, numberedNodes, Node.numbered]
      split
      · exact ⟨_, rfl⟩
      · exact ⟨_, rfl⟩
    rw [hlast]
    cases hshared : isSharedText (String.ofList b) with
    | true =>
      refine ⟨(numberedNodes as n).2 + 1, Nat.le_succ_of_le hle, ?_⟩
      rw [numberedNodes_shared hshared]
      exact .merged ha hb False.elim hnodes
    | false =>
      refine ⟨(numberedNodes as n).2, hle, ?_⟩
      rw [numberedNodes_own hshared]
      exact .merged ha hb False.elim hnodes

/-- A row of statements is numbered as such. -/
theorem Template.IsRow.numbered {t : Template} {path : Option String} {nodes : List Node}
    (h : t.IsRow path nodes) (n : Nat) :
    (t.numbered n).1.IsRow path (numberedNodes nodes n).1 := by
  obtain ⟨span, inner, hpage⟩ := h.page
  obtain ⟨page, _, _, _⟩ := t
  obtain rfl : page = _ := hpage
  exact ⟨h.path, h.clean, span, inner, rfl⟩

end Stencil
