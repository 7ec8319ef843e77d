import Stencil.Template

/-!
# The names that templates bind

Assignments and loops bind names. `Node.BindsOnly p` says of a tree, and
`Template.BindsOnly p` of a template, that all the names it binds satisfy `p`,
wherever they stand in it. Giving the literals of a tree their numbers changes
nothing about that.
-/

namespace Stencil

/-- A name that templates may bind: any but that of the arguments. -/
def IsBindable (name : String) : Prop := name ≠ argumentsName

mutual

/-- Every assignment and every loop of a tree binds a name with `p`. -/
def Node.BindsOnly (p : String → Prop) : Node → Prop
  | .page _ body frontMatter => body.BindsOnly p ∧ frontMatter.BindsOnly p
  | .block _ body => nodesBindOnly p body
  | .expression _ value => value.BindsOnly p
  | .assign _ target value => p target ∧ value.BindsOnly p
  | .branch _ test body otherwise =>
    test.BindsOnly p ∧ body.BindsOnly p ∧ otherwise.BindsOnly p
  | .loop _ target source body => p target ∧ source.BindsOnly p ∧ body.BindsOnly p
  | .list _ items => nodesBindOnly p items
  | .member _ object _ => object.BindsOnly p
  | .item _ object key => object.BindsOnly p ∧ key.BindsOnly p
  | .call _ callee arguments => callee.BindsOnly p ∧ nodesBindOnly p arguments
  | .unary _ _ operand => operand.BindsOnly p
  | .arithmetic _ _ left right | .compare _ _ left right | .logic _ _ left right
  | .unknownOperator _ _ left right => left.BindsOnly p ∧ right.BindsOnly p
  | _ => True

/-- Every assignment and every loop of several trees binds a name with `p`. -/
def nodesBindOnly (p : String → Prop) : List Node → Prop
  | [] => True
  | node :: rest => node.BindsOnly p ∧ nodesBindOnly p rest

end

theorem nodesBindOnly_iff {p : String → Prop} {nodes : List Node} :
    nodesBindOnly p nodes ↔ ∀ node ∈ nodes, node.BindsOnly p := by
  induction nodes with
  | nil => simp [nodesBindOnly]
  | cons node rest ih => simp [nodesBindOnly, ih]

mutual

/-- What holds of all names, holds of those that a tree binds. -/
theorem Node.bindsOnly_of_forall {p : String → Prop} (h : ∀ name, p name) :
    ∀ node : Node, node.BindsOnly p
  | .page _ body frontMatter => ⟨body.bindsOnly_of_forall h, frontMatter.bindsOnly_of_forall h⟩
  | .block _ body => nodesBindOnly_of_forall h body
  | .expression _ value => value.bindsOnly_of_forall h
  | .assign _ target value => ⟨h target, value.bindsOnly_of_forall h⟩
  | .branch _ test body otherwise =>
    ⟨test.bindsOnly_of_forall h, body.bindsOnly_of_forall h, otherwise.bindsOnly_of_forall h⟩
  | .loop _ target source body =>
    ⟨h target, source.bindsOnly_of_forall h, body.bindsOnly_of_forall h⟩
  | .list _ items => nodesBindOnly_of_forall h items
  | .member _ object _ => object.bindsOnly_of_forall h
  | .item _ object key => ⟨object.bindsOnly_of_forall h, key.bindsOnly_of_forall h⟩
  | .call _ callee arguments =>
    ⟨callee.bindsOnly_of_forall h, nodesBindOnly_of_forall h arguments⟩
  | .unary _ _ operand => operand.bindsOnly_of_forall h
  | .arithmetic _ _ left right | .compare _ _ left right | .logic _ _ left right
  | .unknownOperator _ _ left right => ⟨left.bindsOnly_of_forall h, right.bindsOnly_of_forall h⟩
  | .absent | .text .. | .const .. | .name .. | .argument .. | .argumentAt .. | .custom ..
  | .foreign .. => trivial

theorem nodesBindOnly_of_forall {p : String → Prop} (h : ∀ name, p name) :
    ∀ nodes : List Node, nodesBindOnly p nodes
  | [] => trivial
  | node :: rest => ⟨node.bindsOnly_of_forall h, nodesBindOnly_of_forall h rest⟩

end

/-- Every assignment and every loop of a template binds a name with `p`. -/
def Template.BindsOnly (p : String → Prop) (t : Template) : Prop :=
  ∀ page, t.page = some page → page.node.BindsOnly p

/-! ## Numbering literals -/

mutual

theorem Node.BindsOnly.numbered {p : String → Prop} :
    ∀ {node : Node} (n : Nat), node.BindsOnly p → (node.numbered n).1.BindsOnly p
  | .page _ body frontMatter, n, h => ⟨h.1.numbered n, h.2.numbered (body.numbered n).2⟩
  | .block _ body, n, h => nodesBindOnly_numbered n h
  | .text _ value id, n, _ => by
    unfold Node.numbered
    split <;> exact trivial
  | .expression _ value, n, h => (show value.BindsOnly p from h).numbered n
  | .assign _ target value, n, h => ⟨h.1, h.2.numbered n⟩
  | .branch _ test body otherwise, n, h =>
    ⟨h.1.numbered n, h.2.1.numbered (test.numbered n).2,
      h.2.2.numbered (body.numbered (test.numbered n).2).2⟩
  | .loop _ target source body, n, h => ⟨h.1, h.2.1.numbered n, h.2.2.numbered (source.numbered n).2⟩
  | .const _ _, _, _ => trivial
  | .list _ items, n, h => nodesBindOnly_numbered n h
  | .member _ object name, n, h => (show object.BindsOnly p from h).numbered n
  | .item _ object key, n, h => ⟨h.1.numbered n, h.2.numbered (object.numbered n).2⟩
  | .call _ callee arguments, n, h => ⟨h.1.numbered n, nodesBindOnly_numbered (callee.numbered n).2 h.2⟩
  | .unary _ op operand, n, h => (show operand.BindsOnly p from h).numbered n
  | .arithmetic _ op left right, n, h => ⟨h.1.numbered n, h.2.numbered (left.numbered n).2⟩
  | .compare _ op left right, n, h => ⟨h.1.numbered n, h.2.numbered (left.numbered n).2⟩
  | .logic _ op left right, n, h => ⟨h.1.numbered n, h.2.numbered (left.numbered n).2⟩
  | .unknownOperator _ symbol left right, n, h => ⟨h.1.numbered n, h.2.numbered (left.numbered n).2⟩
  | .absent, _, _ => trivial
  | .name .., _, _ => trivial
  | .argument .., _, _ => trivial
  | .argumentAt .., _, _ => trivial
  | .custom .., _, _ => trivial
  | .foreign .., _, _ => trivial

theorem nodesBindOnly_numbered {p : String → Prop} :
    ∀ {nodes : List Node} (n : Nat), nodesBindOnly p nodes → nodesBindOnly p (numberedNodes nodes n).1
  | [], _, _ => trivial
  | node :: _, n, h => ⟨h.1.numbered n, nodesBindOnly_numbered (node.numbered n).2 h.2⟩

end

/-- The front matter of a template binds what the template binds. -/
theorem Template.BindsOnly.frontMatter? {p : String → Prop} {t : Template} (h : t.BindsOnly p)
    {node : Node} (hn : t.frontMatter? = some node) : node.BindsOnly p := by
  unfold Template.frontMatter? at hn
  split at hn
  · next page hp =>
    have hb := (h page hp).2
    split at hn
    · cases hn
    · cases hn
      exact hb
  · cases hn

theorem Template.BindsOnly.numbered {p : String → Prop} {t : LoadedTemplate}
    (h : t.template.BindsOnly p) : t.numbered.BindsOnly p := by
  obtain ⟨id, page, path, diagnostics, source⟩ := t
  cases page with
  | none => exact h
  | some page =>
    rintro _ ⟨⟩
    exact (h page rfl).numbered (id + 1)

end Stencil
