import Stencil.Proofs.Bindings

/-!
# Trees without places

Two trees that differ in nothing but their places have the same `Node.erased`. A
tree binds the names that it binds without its places, and holds the same texts.
-/

namespace Stencil

/-- No place in particular. -/
def nowhere : Span := ⟨none, .start, .start⟩

mutual

/-- A tree without its places. -/
def Node.erased : Node → Node
  | .absent => .absent
  | .page _ body frontMatter => .page nowhere body.erased frontMatter.erased
  | .block _ body => .block nowhere (erasedNodes body)
  | .text _ value id => .text nowhere value id
  | .expression _ value => .expression nowhere value.erased
  | .assign _ target value => .assign nowhere target value.erased
  | .branch _ test body otherwise => .branch nowhere test.erased body.erased otherwise.erased
  | .loop _ target source body => .loop nowhere target source.erased body.erased
  | .const _ value => .const nowhere value
  | .name _ name => .name nowhere name
  | .argument _ index => .argument nowhere index
  | .argumentAt _ index => .argumentAt nowhere index
  | .list _ items => .list nowhere (erasedNodes items)
  | .member _ object name => .member nowhere object.erased name
  | .item _ object key => .item nowhere object.erased key.erased
  | .call _ callee arguments => .call nowhere callee.erased (erasedNodes arguments)
  | .unary _ op operand => .unary nowhere op operand.erased
  | .arithmetic _ op left right => .arithmetic nowhere op left.erased right.erased
  | .compare _ op left right => .compare nowhere op left.erased right.erased
  | .logic _ op left right => .logic nowhere op left.erased right.erased
  | .custom _ writes value => .custom nowhere writes value
  | .foreign _ typeName => .foreign nowhere typeName
  | .unknownOperator _ symbol left right =>
    .unknownOperator nowhere symbol left.erased right.erased

/-- Trees without their places. -/
def erasedNodes : List Node → List Node
  | [] => []
  | node :: rest => node.erased :: erasedNodes rest

end

/-- A page without its places. -/
def Page.erased (p : Page) : Page := ⟨nowhere, p.body.erased, p.frontMatter.erased⟩

mutual

/-- The texts of a tree, in the order in which they stand in the source. -/
def Node.texts : Node → List String
  | .page _ body frontMatter => frontMatter.texts ++ body.texts
  | .block _ body => textsOfNodes body
  | .text _ value _ => [value]
  | .expression _ value | .assign _ _ value => value.texts
  | .branch _ test body otherwise => test.texts ++ (body.texts ++ otherwise.texts)
  | .loop _ _ source body => source.texts ++ body.texts
  | .list _ items => textsOfNodes items
  | .member _ object _ => object.texts
  | .item _ object key => object.texts ++ key.texts
  | .call _ callee arguments => callee.texts ++ textsOfNodes arguments
  | .unary _ _ operand => operand.texts
  | .arithmetic _ _ left right | .compare _ _ left right | .logic _ _ left right
  | .unknownOperator _ _ left right => left.texts ++ right.texts
  | .absent | .const .. | .name .. | .argument .. | .argumentAt .. | .custom .. | .foreign .. => []

/-- The texts of several trees. -/
def textsOfNodes : List Node → List String
  | [] => []
  | node :: rest => node.texts ++ textsOfNodes rest

end

mutual

theorem Node.texts_erased : ∀ node : Node, node.erased.texts = node.texts
  | .page _ body frontMatter => by
    rw [Node.erased, Node.texts, Node.texts, body.texts_erased, frontMatter.texts_erased]
  | .block _ body => by rw [Node.erased, Node.texts, Node.texts, textsOfNodes_erased body]
  | .expression _ value | .assign _ _ value => by
    rw [Node.erased, Node.texts, Node.texts, value.texts_erased]
  | .branch _ test body otherwise => by
    rw [Node.erased, Node.texts, Node.texts, test.texts_erased, body.texts_erased, otherwise.texts_erased]
  | .loop _ _ source body => by
    rw [Node.erased, Node.texts, Node.texts, source.texts_erased, body.texts_erased]
  | .list _ items => by rw [Node.erased, Node.texts, Node.texts, textsOfNodes_erased items]
  | .member _ object _ => by rw [Node.erased, Node.texts, Node.texts, object.texts_erased]
  | .item _ object key => by
    rw [Node.erased, Node.texts, Node.texts, object.texts_erased, key.texts_erased]
  | .call _ callee arguments => by
    rw [Node.erased, Node.texts, Node.texts, callee.texts_erased, textsOfNodes_erased arguments]
  | .unary _ _ operand => by rw [Node.erased, Node.texts, Node.texts, operand.texts_erased]
  | .arithmetic _ _ left right | .compare _ _ left right | .logic _ _ left right
  | .unknownOperator _ _ left right => by
    rw [Node.erased, Node.texts, Node.texts, left.texts_erased, right.texts_erased]
  | .absent | .text .. | .const .. | .name .. | .argument .. | .argumentAt .. | .custom ..
  | .foreign .. => rfl

theorem textsOfNodes_erased : ∀ nodes : List Node, textsOfNodes (erasedNodes nodes) = textsOfNodes nodes
  | [] => rfl
  | node :: rest => by
    rw [erasedNodes, textsOfNodes, textsOfNodes, node.texts_erased, textsOfNodes_erased rest]

end

mutual

theorem Node.bindsOnly_erased {p : String → Prop} :
    ∀ node : Node, node.erased.BindsOnly p ↔ node.BindsOnly p
  | .page _ body frontMatter => by
    rw [Node.erased, Node.BindsOnly, Node.BindsOnly, body.bindsOnly_erased, frontMatter.bindsOnly_erased]
  | .block _ body => by rw [Node.erased, Node.BindsOnly, Node.BindsOnly, nodesBindOnly_erased body]
  | .expression _ value | .assign _ _ value => by
    rw [Node.erased, Node.BindsOnly, Node.BindsOnly, value.bindsOnly_erased]
  | .branch _ test body otherwise => by
    rw [Node.erased, Node.BindsOnly, Node.BindsOnly, test.bindsOnly_erased, body.bindsOnly_erased,
      otherwise.bindsOnly_erased]
  | .loop _ _ source body => by
    rw [Node.erased, Node.BindsOnly, Node.BindsOnly, source.bindsOnly_erased, body.bindsOnly_erased]
  | .list _ items => by rw [Node.erased, Node.BindsOnly, Node.BindsOnly, nodesBindOnly_erased items]
  | .member _ object _ => by rw [Node.erased, Node.BindsOnly, Node.BindsOnly, object.bindsOnly_erased]
  | .item _ object key => by
    rw [Node.erased, Node.BindsOnly, Node.BindsOnly, object.bindsOnly_erased, key.bindsOnly_erased]
  | .call _ callee arguments => by
    rw [Node.erased, Node.BindsOnly, Node.BindsOnly, callee.bindsOnly_erased, nodesBindOnly_erased arguments]
  | .unary _ _ operand => by rw [Node.erased, Node.BindsOnly, Node.BindsOnly, operand.bindsOnly_erased]
  | .arithmetic _ _ left right | .compare _ _ left right | .logic _ _ left right
  | .unknownOperator _ _ left right => by
    rw [Node.erased, Node.BindsOnly, Node.BindsOnly, left.bindsOnly_erased, right.bindsOnly_erased]
  | .absent | .text .. | .const .. | .name .. | .argument .. | .argumentAt .. | .custom ..
  | .foreign .. => Iff.rfl

theorem nodesBindOnly_erased {p : String → Prop} :
    ∀ nodes : List Node, nodesBindOnly p (erasedNodes nodes) ↔ nodesBindOnly p nodes
  | [] => Iff.rfl
  | node :: rest => by
    rw [erasedNodes, nodesBindOnly, nodesBindOnly, node.bindsOnly_erased, nodesBindOnly_erased rest]

end

end Stencil
