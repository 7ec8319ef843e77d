import Stencil.Proofs.Balance
import Stencil.Proofs.Coupling

/-!
# The literals in a source

A host may put any value into a tree that it builds. A template that was read holds literals alone:
null, booleans, numbers and texts (`Template.IsLoaded.isLiteral`). So a template that runs never
brings an object or a list into a run that was not there before.
-/

namespace Stencil

open Grammar

/-- Every node of a tree satisfies `p`. -/
inductive Node.Everywhere (p : Node → Prop) : Node → Prop
  | intro {n : Node} : p n → (∀ m ∈ n.children, Node.Everywhere p m) → Node.Everywhere p n

/-- A value that is written in a source. -/
def Value.IsLiteral : Value → Prop
  | .null | .bool _ | .int _ _ | .float _ _ | .text _ _ => True
  | _ => False

/-- The values that stand in a node are literals. -/
def Node.HoldsLiterals (n : Node) : Prop := ∀ v ∈ n.constants, v.IsLiteral

/-- The values that stand in a tree are literals. -/
abbrev Node.IsLiteral (n : Node) : Prop := n.Everywhere Node.HoldsLiterals

namespace Node.Everywhere

variable {p : Node → Prop} {n : Node}

theorem here (h : n.Everywhere p) : p n := by
  cases h with
  | intro h _ => exact h

theorem child (h : n.Everywhere p) {m : Node} (hm : m ∈ n.children) : m.Everywhere p := by
  cases h with
  | intro _ h => exact h m hm

end Node.Everywhere

/-- A node in which no value stands. -/
theorem Node.IsLiteral.of_children {n : Node} (hn : n.constants = [])
    (h : ∀ m ∈ n.children, m.IsLiteral) : n.IsLiteral :=
  .intro (by simp [Node.HoldsLiterals, hn]) h

theorem Node.IsLiteral.of_leaf {n : Node} (hn : n.constants = []) (hc : n.children = []) :
    n.IsLiteral :=
  .of_children hn (by simp [hc])

theorem Node.IsLiteral.const {span : Span} {v : Value} (h : v.IsLiteral) :
    (Node.const span v).IsLiteral :=
  .intro (by simpa [Node.HoldsLiterals, Node.constants] using h) (by simp [Node.children])

theorem literal?_isLiteral {word : String} {v : Value} (h : literal? word = some v) :
    v.IsLiteral := by
  unfold literal? at h
  split at h
  · cases h
    trivial
  split at h
  · cases h
    trivial
  split at h
  · cases h
    trivial
  · cases h

theorem mem_of_forall₂ {α β : Type} {R : α → β → Prop} {as : List α} {bs : List β}
    (h : List.Forall₂ R as bs) {b : β} (hb : b ∈ bs) : ∃ a ∈ as, R a b := by
  induction h with
  | nil => nomatch hb
  | @cons a _ _ _ hab _ ih =>
    cases hb with
    | head => exact ⟨a, List.mem_cons_self, hab⟩
    | tail _ hb =>
      obtain ⟨a', ha', hr⟩ := ih hb
      exact ⟨a', List.mem_cons_of_mem a ha', hr⟩

/-! ## Trees of the grammar -/

theorem Grammar.Derives.isLiteral {l : Level} {ts us : List Token} {e : Node}
    (h : Derives l ts e us) : e.IsLiteral := by
  induction h with
  | integer _ _ => exact .const trivial
  | float _ => exact .const trivial
  | string _ => exact .const trivial
  | literal _ hv => exact .const (literal?_isLiteral hv)
  | arguments _ _ => exact .of_leaf rfl rfl
  | argument _ _ _ => exact .of_leaf rfl rfl
  | name _ _ => exact .of_leaf rfl rfl
  | nothing => exact .of_leaf rfl rfl
  | parens _ _ _ ih => exact ih
  | list _ _ _ ih => exact ih
  | tighter _ _ ih => exact ih
  | some _ ih => exact ih
  | member _ _ _ ih => exact .of_children rfl (by simpa [Node.children] using ih)
  | item _ _ _ _ ih ihk => exact .of_children rfl (by simpa [Node.children] using ⟨ih, ihk⟩)
  | call _ _ _ _ ih iha =>
    exact .of_children rfl (List.forall_mem_cons.mpr ⟨ih, fun m hm => iha.child hm⟩)
  | negate _ _ ih => exact .of_children rfl (by simpa [Node.children] using ih)
  | not _ _ ih => exact .of_children rfl (by simpa [Node.children] using ih)
  | @combine l _ t _ _ _ f left right _ _ hf _ ihl ihr =>
    have hboth {n : Node} (hc : n.constants = []) (hn : n.children = [left, right]) : n.IsLiteral :=
      .of_children hc (by simpa [hn] using ⟨ihl, ihr⟩)
    cases l with
    | product | sum | conjunction | disjunction =>
      obtain ⟨op, -, rfl⟩ := Option.map_eq_some_iff.mp hf
      exact hboth rfl rfl
    | _ => cases hf
  | compare _ _ _ ihl ihr => exact .of_children rfl (by simpa [Node.children] using ⟨ihl, ihr⟩)
  | last _ ih => exact .of_children rfl (by simpa [Node.children] using ih)
  | more _ _ _ ihe ihs =>
    exact .of_children rfl (List.forall_mem_cons.mpr ⟨ihe, fun m hm => ihs.child hm⟩)

theorem Grammar.Parses.isLiteral {p : Part} {ts us : List Token} {n : Node}
    (h : Parses p ts n us) : n.IsLiteral := by
  have habsent : Node.absent.IsLiteral := .of_leaf rfl rfl
  induction h with
  | expression he => exact .of_children rfl (by simpa [Node.children] using he.isLiteral)
  | assign _ _ _ he => exact .of_children rfl (by simpa [Node.children] using he.isLiteral)
  | loop _ _ _ _ he _ _ _ ih =>
    exact .of_children rfl (by simpa [Node.children] using ⟨he.isLiteral, ih⟩)
  | conditions _ ih => exact ih
  | when _ he _ _ _ ih =>
    exact .of_children rfl (by simpa [Node.children] using ⟨he.isLiteral, ih, habsent⟩)
  | whenElse _ he _ _ _ _ _ _ ih iho =>
    exact .of_children rfl (by simpa [Node.children] using ⟨he.isLiteral, ih, iho⟩)
  | whenElseWhen _ he _ _ _ _ ih ihn =>
    have hblock : Node.IsLiteral (.block nowhere [_]) :=
      .of_children rfl (by simpa [Node.children] using ihn)
    exact .of_children rfl (by simpa [Node.children] using ⟨he.isLiteral, ih, hblock⟩)
  | nothing => exact .of_leaf rfl rfl
  | separator _ _ ih => exact ih
  | text _ _ ih =>
    exact .of_children rfl (List.forall_mem_cons.mpr ⟨.of_leaf rfl rfl, fun m hm => ih.child hm⟩)
  | statement _ _ _ ihn ih =>
    exact .of_children rfl (List.forall_mem_cons.mpr ⟨ihn, fun m hm => ih.child hm⟩)

theorem Grammar.ParsesPage.isLiteral {ts us : List Token} {page : Page} (h : ParsesPage ts page us) :
    page.node.IsLiteral := by
  have habsent : Node.absent.IsLiteral := .of_leaf rfl rfl
  have hempty : (Node.block nowhere []).IsLiteral := .of_leaf rfl rfl
  refine .of_children rfl ?_
  cases h with
  | plain h => simpa [Page.node, Node.children] using ⟨h.isLiteral, habsent⟩
  | frontMatter _ h => simpa [Page.node, Node.children] using ⟨hempty, h.isLiteral⟩
  | both _ hf _ hb => simpa [Page.node, Node.children] using ⟨hb.isLiteral, hf.isLiteral⟩

/-! ## Places and numbers -/

theorem erasedNodes_eq (nodes : List Node) : erasedNodes nodes = nodes.map Node.erased := by
  induction nodes with
  | nil => rfl
  | cons n rest ih => rw [erasedNodes, ih, List.map_cons]

theorem Node.children_erased (n : Node) : n.erased.children = n.children.map Node.erased := by
  cases n <;> simp [Node.erased, Node.children, erasedNodes_eq]

theorem Node.constants_erased (n : Node) : n.erased.constants = n.constants := by
  cases n <;> simp [Node.erased, Node.constants]

/-- A tree holds literals alone if it does without its places. -/
theorem Node.IsLiteral.of_erased {e : Node} (h : e.IsLiteral) {n : Node} (hn : n.erased = e) :
    n.IsLiteral := by
  induction h generalizing n with
  | intro hhere _ ih =>
    subst hn
    refine .intro ?_ fun m hm => ih m.erased ?_ rfl
    · rwa [Node.HoldsLiterals, Node.constants_erased] at hhere
    · rw [Node.children_erased]
      exact List.mem_map_of_mem hm

theorem Value.IsLiteral.numbered {v : Value} (h : v.IsLiteral) (k : Nat) :
    (v.numbered k).1.IsLiteral := by
  unfold Value.numbered
  split
  · split <;> trivial
  · trivial
  · split <;> trivial
  · exact h

/-- A tree that was numbered, from some number on. -/
def Node.NumberedAs (n m : Node) : Prop := ∃ k, m = (n.numbered k).1

theorem numberedNodes_forall₂ (nodes : List Node) (k : Nat) :
    List.Forall₂ Node.NumberedAs nodes (numberedNodes nodes k).1 := by
  induction nodes generalizing k with
  | nil => exact .nil
  | cons n rest ih => exact .cons ⟨k, rfl⟩ (ih (n.numbered k).2)

theorem Node.children_numbered (n : Node) (k : Nat) :
    List.Forall₂ Node.NumberedAs n.children (n.numbered k).1.children := by
  cases n with
  | block _ nodes | list _ nodes => exact numberedNodes_forall₂ nodes k
  | call _ callee arguments => exact .cons ⟨k, rfl⟩ (numberedNodes_forall₂ arguments _)
  | expression | assign | member | unary => exact .cons ⟨_, rfl⟩ .nil
  | page | loop | item | arithmetic | compare | logic | unknownOperator =>
    exact .cons ⟨_, rfl⟩ (.cons ⟨_, rfl⟩ .nil)
  | branch => exact .cons ⟨_, rfl⟩ (.cons ⟨_, rfl⟩ (.cons ⟨_, rfl⟩ .nil))
  | text _ value id =>
    unfold Node.numbered
    split <;> exact .nil
  | _ => exact .nil

theorem Node.HoldsLiterals.numbered {n : Node} (h : n.HoldsLiterals) (k : Nat) :
    (n.numbered k).1.HoldsLiterals := by
  cases n with
  | const _ v =>
    have hv : v.IsLiteral := h v (.head _)
    exact List.forall_mem_singleton.mpr (hv.numbered k)
  | text _ value id =>
    unfold Node.numbered
    split <;> exact h
  | _ => exact h

/-- A tree still holds literals alone when they are numbered. -/
theorem Node.IsLiteral.numbered {n : Node} (h : n.IsLiteral) (k : Nat) :
    (n.numbered k).1.IsLiteral := by
  induction h generalizing k with
  | @intro n hhere _ ih =>
    refine .intro (hhere.numbered k) fun m hm => ?_
    obtain ⟨n', hn', j, rfl⟩ := mem_of_forall₂ (n.children_numbered k) hm
    exact ih n' hn' j

/-! ## Templates -/

/-- A template that was read without an error holds literals alone. -/
theorem Template.parse_isLiteral {options : TemplateOptions} {path : Option String} {source : String}
    {t : Template} (h : Template.parse options path source = .ok t) (he : t.hasErrors = false)
    {page : Page} (hp : t.page = some page) : page.node.IsLiteral := by
  obtain ⟨us, hparses⟩ := Template.parsesPage_of_parse h he hp
  exact hparses.isLiteral.of_erased rfl

/-- What runs of a template that was read holds literals alone. -/
theorem Template.IsLoaded.isLiteral {t : Template} (h : t.IsLoaded) (he : t.hasErrors = false)
    {page : Page} (hp : t.page = some page) : page.node.IsLiteral := by
  obtain ⟨⟨id, read⟩, ⟨options, path, source, hread⟩, rfl⟩ := h
  obtain ⟨page₀, path₀, diagnostics, source₀⟩ := read
  cases page₀ with
  | none => nomatch hp
  | some page₀ =>
    cases hp
    exact (Template.parse_isLiteral hread he rfl).numbered (id + 1)

end Stencil
