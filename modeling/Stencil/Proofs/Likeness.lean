import Stencil.Proofs.Tracking

/-!
# Readings that correspond

Two readings of tokens that correspond go the same way: both return, both stop at a
syntax error, or both stop at the same fault. `Likeness` collects what has to be known
of two readings: how their tokens, cursors and errors correspond, and what becomes of
places. One of them may have to stop where the other one has more ahead: `tails` are the
tokens at which the first one ends a section and the second one at least a block of code, and
all that is known there is that they do. Expressions do not tell the two apart; for statements
the second reading has to end a section as well (`Likeness.Closed`).

`Mirrors` is the judgement on two readers, with a rule for each step that readers are made
of. As in `Tracks`, two numbers bound the tokens ahead before and after. Unlike there every
exit is followed, so that what is skipped and reported is followed too.
-/

namespace Stencil

/-! ## Trees elsewhere -/

mutual

/-- A tree with other places. -/
def Node.moved (move : Span → Span) : Node → Node
  | .absent => .absent
  | .page span body frontMatter => .page (move span) (body.moved move) (frontMatter.moved move)
  | .block span body => .block (move span) (movedNodes move body)
  | .text span value id => .text (move span) value id
  | .expression span value => .expression (move span) (value.moved move)
  | .assign span target value => .assign (move span) target (value.moved move)
  | .branch span test body otherwise =>
    .branch (move span) (test.moved move) (body.moved move) (otherwise.moved move)
  | .loop span target source body => .loop (move span) target (source.moved move) (body.moved move)
  | .const span value => .const (move span) value
  | .name span name => .name (move span) name
  | .argument span index => .argument (move span) index
  | .argumentAt span index => .argumentAt (move span) index
  | .list span items => .list (move span) (movedNodes move items)
  | .member span object name => .member (move span) (object.moved move) name
  | .item span object key => .item (move span) (object.moved move) (key.moved move)
  | .call span callee arguments => .call (move span) (callee.moved move) (movedNodes move arguments)
  | .unary span op operand => .unary (move span) op (operand.moved move)
  | .arithmetic span op left right => .arithmetic (move span) op (left.moved move) (right.moved move)
  | .compare span op left right => .compare (move span) op (left.moved move) (right.moved move)
  | .logic span op left right => .logic (move span) op (left.moved move) (right.moved move)
  | .custom span writes value => .custom (move span) writes value
  | .foreign span typeName => .foreign (move span) typeName
  | .unknownOperator span symbol left right =>
    .unknownOperator (move span) symbol (left.moved move) (right.moved move)

/-- Trees with other places. -/
def movedNodes (move : Span → Span) : List Node → List Node
  | [] => []
  | node :: rest => node.moved move :: movedNodes move rest

end

/-- A page with other places. -/
def Page.moved (move : Span → Span) (p : Page) : Page :=
  ⟨move p.span, p.body.moved move, p.frontMatter.moved move⟩

theorem movedNodes_append (move : Span → Span) (as bs : List Node) :
    movedNodes move (as ++ bs) = movedNodes move as ++ movedNodes move bs := by
  induction as with
  | nil => rfl
  | cons a as ih => rw [List.cons_append, movedNodes, ih, movedNodes, List.cons_append]

theorem Node.span?_moved (move : Span → Span) (node : Node) :
    (node.moved move).span? = node.span?.map move := by
  cases node <;> rfl

mutual

theorem Node.moved_id : ∀ node : Node, node.moved id = node
  | .absent | .text .. | .const .. | .name .. | .argument .. | .argumentAt .. | .custom ..
  | .foreign .. => rfl
  | .page _ body frontMatter => by rw [Node.moved, body.moved_id, frontMatter.moved_id, id]
  | .block _ body | .list _ body => by rw [Node.moved, movedNodes_id body, id]
  | .expression _ value | .assign _ _ value | .member _ value _ | .unary _ _ value => by
    rw [Node.moved, value.moved_id, id]
  | .branch _ test body otherwise => by
    rw [Node.moved, test.moved_id, body.moved_id, otherwise.moved_id, id]
  | .loop _ _ left right | .item _ left right | .arithmetic _ _ left right | .compare _ _ left right
  | .logic _ _ left right | .unknownOperator _ _ left right => by
    rw [Node.moved, left.moved_id, right.moved_id, id]
  | .call _ callee arguments => by rw [Node.moved, callee.moved_id, movedNodes_id arguments, id]

theorem movedNodes_id : ∀ nodes : List Node, movedNodes id nodes = nodes
  | [] => rfl
  | node :: rest => by rw [movedNodes, node.moved_id, movedNodes_id rest]

end

namespace Grammar

variable {α β : Type} {o o' : Options}

theorem kind_of_endsSection {t : Token} (h : endsSection t = true) :
    t.kind = .eof ∨ t.kind = .frontMatterMarker := by
  unfold endsSection at h
  split at h
  · exact .inl ‹_›
  · exact .inr ‹_›
  · cases h

/-- A token at which no statement ends. -/
def GoesOn (t : Token) : Prop := endsStatement t = false

theorem GoesOn.isBefore {t : Token} (h : GoesOn t) : IsBefore t := by
  refine Bool.eq_false_iff.mpr fun hs => ?_
  obtain hk | hk := kind_of_endsSection hs <;> rw [GoesOn, endsStatement, hk] at h <;> cases h

theorem GoesOn.of_kind {t : Token} {kind : TokenKind} (h : t.kind = kind)
    (hk : GoesOn ⟨kind, "", .start, .start⟩) : GoesOn t := by
  rw [GoesOn, endsStatement, h]
  exact hk

theorem GoesOn.of_beq {t : Token} {kind : TokenKind} (h : (t.kind == kind) = true)
    (hk : GoesOn ⟨kind, "", .start, .start⟩) : GoesOn t := .of_kind (by simpa using h) hk

/-- A sign of a chain ends nothing. -/
theorem Chains.goesOn {l k : Level} {sign? : Token → Option α}
    {combine : Span → α → Node → Node → Node} {meaning : α → Node → Node → Node}
    (C : Chains l k sign? combine meaning) {t : Token} {a : α} (h : sign? t = some a) : GoesOn t :=
  (IsInner.of_sign? (by rw [C.sign, h]; rfl)).1

/-! ## Readings that correspond -/

/-- Whether no code is behind a token that is not part of it. -/
def endsCode (t : Token) : Bool :=
  match t.kind with
  | .codeExit | .eof | .frontMatterMarker => true
  | _ => false

theorem endsCode_of_endsSection {t : Token} (h : endsSection t = true) : endsCode t = true := by
  unfold endsSection at h
  unfold endsCode
  split at h
  · next hk => rw [hk]
  · next hk => rw [hk]
  · cases h

theorem GoesOn.endsCode {t : Token} (h : GoesOn t) : endsCode t = false := by
  unfold GoesOn endsStatement at h
  unfold Grammar.endsCode
  split at h
  any_goals cases h
  split
  any_goals contradiction
  rfl

/-- What the theory needs of two readings. Where a statement ends they may have to part, so a
token is taken only if the statement goes on with it; what takes others is `Likeness.Passes`. -/
structure Likeness (o o' : Options) where
  /-- a range of the second reading, from that of the first -/
  move : Span → Span
  /-- tokens that stand for each other -/
  tokens : Token → Token → Prop
  /-- tokens where both readings end -/
  tails : Token → Token → Prop
  cursors : Cursor → Cursor → Prop
  errors : SyntaxError → SyntaxError → Prop
  /-- faults that both readings may end in -/
  faults : Fault → Prop
  depth : o'.depthLimit = o.depthLimit
  atom {t t' : Token} : tokens t t' → SameAtom t t'
  ends {t t' : Token} : tails t t' → endsSection t = true ∧ endsCode t' = true
  ended {c c' : Cursor} : cursors c c' → c.Ended
  /-- The second reading may have more ahead. -/
  length_le {c c' : Cursor} : cursors c c' → c.rest.length ≤ c'.rest.length
  current {c c' : Cursor} : cursors c c' → tokens c.current c'.current ∨ tails c.current c'.current
  /-- The first reading has nothing behind the token where it ends. -/
  last {c c' : Cursor} : cursors c c' → tails c.current c'.current → c.rest.length ≤ 1
  advance {c c' : Cursor} {t t' : Token} {us us' : List Token} : cursors c c' → c.rest = t :: us →
    c'.rest = t' :: us' → tokens t t' → GoesOn t → cursors (c.behind t us) (c'.behind t' us')
  report {c c' : Cursor} {e e' : SyntaxError} : cursors c c' → errors e e' →
    cursors { c with reported := c.reported ++ [e] } { c' with reported := c'.reported ++ [e'] }
  span {c c' : Cursor} {t t' : Token} : cursors c c' → tokens t t' →
    c'.spanFrom o' t' = move (c.spanFrom o t)
  error {t t' : Token} (problem : Problem) : tokens t t' → errors (problem.at t) (problem.at t')
  error_tails {t t' : Token} (problem problem' : Problem) :
    tails t t' → errors (problem.at t) (problem'.at t')
  /-- A block tells the line where it began. -/
  missingEnd {t t' start start' : Token} (keyword : String) : tokens t t' → tokens start start' →
    errors ((Problem.missingEnd keyword start.start.line).at t)
      ((Problem.missingEnd keyword start'.start.line).at t')
  tooLong {t t' : Token} {e : Fault} : tokens t t' → t.kind = .integer ∨ t.kind = .argument →
    natural t.value.toList = .error e → faults e

namespace Likeness

variable (L : Likeness o o') {t t' : Token}

/-- Tokens that are ahead at the same time. -/
def Meets (t t' : Token) : Prop := L.tokens t t' ∨ L.tails t t'

/-- Two ends of readers: both returned, or both stopped, and have not parted. At most `j`
tokens are ahead of the first one if it returned. -/
inductive Alike (j : Nat) (P : α → α → Prop) :
    EStateM.Result Stop Cursor α → EStateM.Result Stop Cursor α → Prop
  | ok {a a' : α} {d d' : Cursor} : P a a' → L.cursors d d' → d.rest.length ≤ j →
      Alike j P (.ok a d) (.ok a' d')
  | malformed {e e' : SyntaxError} {d d' : Cursor} : L.errors e e' → L.cursors d d' →
      Alike j P (.error (.malformed e) d) (.error (.malformed e') d')
  | fault {e : Fault} {d d' : Cursor} : L.faults e → L.cursors d d' →
      Alike j P (.error (.fault e) d) (.error (.fault e) d')

/-- From cursors that correspond, with at most `k` tokens ahead, two readers end alike. -/
structure Mirrors (k j : Nat) (P : α → α → Prop) (r r' : Reader α) : Prop where
  alike {c c' : Cursor} : L.cursors c c' → c.rest.length ≤ k → L.Alike j P (r c) (r' c')

/-- `Mirrors`, where the tokens ahead are known. -/
structure MirrorsAt (t t' : Token) (k j : Nat) (P : α → α → Prop) (r r' : Reader α) : Prop where
  alike {c c' : Cursor} : L.cursors c c' → c.current = t → c'.current = t' → c.rest.length ≤ k →
    L.Alike j P (r c) (r' c')

/-- The same trees, in their places. -/
def Same (n n' : Node) : Prop := n' = n.moved L.move

/-- The same trees in a row, in their places. -/
def SameRow (ns ns' : List Node) : Prop := ns' = movedNodes L.move ns

/-- Two readings that go on behind statements. -/
class Passes : Prop where
  pass {c c' : Cursor} {t t' : Token} {us us' : List Token} : L.cursors c c' → c.rest = t :: us →
    c'.rest = t' :: us' → L.tokens t t' → t.kind ≠ .eof → L.cursors (c.behind t us) (c'.behind t' us')

/-- Two readings that go on up to the tails, where both end a section. -/
class Closed : Prop extends L.Passes where
  ends {t t' : Token} : L.tails t t' → endsSection t' = true

variable {L}

theorem length_pos {c c' : Cursor} (h : L.cursors c c') : 0 < c.rest.length := by
  obtain ⟨t, ht, -⟩ := L.ended h
  exact List.length_pos_of_mem ht

/-! ### Tokens -/

/-- A token that ends nothing is no tail. -/
theorem Meets.tokens (h : L.Meets t t') (ht : IsBefore t) : L.tokens t t' := by
  obtain h | h := h
  · exact h
  · exact absurd (L.ends h).1 (ne_true_of_eq_false ht)

theorem Meets.kind_beq (h : L.Meets t t') (kind : TokenKind)
    (hk : endsCode ⟨kind, "", .start, .start⟩ = false) : (t'.kind == kind) = (t.kind == kind) := by
  obtain h | h := h
  · rw [(L.atom h).kind]
  · have hne {u : Token} (hu : endsCode u = true) : (u.kind == kind) = false := by
      refine beq_false_of_ne fun e => ?_
      have hkind : endsCode u = endsCode ⟨kind, "", .start, .start⟩ := by rw [endsCode, e, endsCode]
      rw [hkind, hk] at hu
      cases hu
    rw [hne (endsCode_of_endsSection (L.ends h).1), hne (L.ends h).2]

theorem isWord_of_endsCode {u : Token} (h : endsCode u = true) (word : String) :
    u.isWord word = false := by
  refine Bool.eq_false_iff.mpr fun hw => ?_
  rw [endsCode, kind_of_isWord hw] at h
  cases h

theorem Meets.isWord (h : L.Meets t t') (word : String) : t'.isWord word = t.isWord word := by
  obtain h | h := h
  · exact (L.atom h).isWord word
  · rw [isWord_of_endsCode (endsCode_of_endsSection (L.ends h).1), isWord_of_endsCode (L.ends h).2]

/-- A property of kinds that tells the ends of code from other tokens by themselves. -/
theorem Meets.congr (h : L.Meets t t') {f : Token → α} (hatom : SameAtom t t' → f t' = f t) {a : α}
    (hend : ∀ u : Token, endsCode u = true → f u = a) : f t' = f t := by
  obtain h | h := h
  · exact hatom (L.atom h)
  · rw [hend t (endsCode_of_endsSection (L.ends h).1), hend t' (L.ends h).2]

theorem kind_of_endsCode {u : Token} (h : endsCode u = true) :
    u.kind = .codeExit ∨ u.kind = .eof ∨ u.kind = .frontMatterMarker := by
  unfold endsCode at h
  split at h
  · exact .inl ‹_›
  · exact .inr (.inl ‹_›)
  · exact .inr (.inr ‹_›)
  · cases h

theorem Meets.endsStatement (h : L.Meets t t') : endsStatement t' = endsStatement t :=
  h.congr SameAtom.endsStatement fun _ hu => by
    obtain hk | hk | hk := kind_of_endsCode hu <;> rw [Grammar.endsStatement, hk]

section Closed

variable [L.Closed]

theorem Meets.endsSection (h : L.Meets t t') : endsSection t' = endsSection t := by
  obtain h | h := h
  · exact SameAtom.endsSection (L.atom h)
  · rw [(L.ends h).1, Closed.ends h]

theorem Meets.isSeparator (h : L.Meets t t') : isSeparator t' = isSeparator t := by
  have hend {u : Token} (hu : Grammar.endsSection u = true) : Grammar.isSeparator u = false := by
    obtain hk | hk := kind_of_endsSection hu <;> rw [Grammar.isSeparator, hk]
  obtain h | h := h
  · exact SameAtom.isSeparator (L.atom h)
  · rw [hend (L.ends h).1, hend (Closed.ends h)]

end Closed

theorem Meets.belongsToBlock (h : L.Meets t t') : belongsToBlock t' = belongsToBlock t := by
  rw [Grammar.belongsToBlock, h.isWord, h.isWord, Grammar.belongsToBlock]

theorem Meets.comparison? (h : L.Meets t t') : comparison? t' = comparison? t :=
  h.congr SameAtom.comparison? fun _ hu => by
    obtain hk | hk | hk := kind_of_endsCode hu <;> rw [Grammar.comparison?, hk]

theorem Meets.additive? (h : L.Meets t t') : additive? t' = additive? t :=
  h.congr SameAtom.additive? fun _ hu => by
    obtain hk | hk | hk := kind_of_endsCode hu <;> rw [Grammar.additive?, hk]

theorem Meets.multiplicative? (h : L.Meets t t') : multiplicative? t' = multiplicative? t :=
  h.congr SameAtom.multiplicative? fun _ hu => by
    obtain hk | hk | hk := kind_of_endsCode hu <;> rw [Grammar.multiplicative?, hk]

theorem Meets.word? (word : String) (h : L.Meets t t') : word? word t' = word? word t := by
  rw [Grammar.word?, h.isWord, Grammar.word?]

theorem Meets.error (h : L.Meets t t') (problem : Problem) :
    L.errors (problem.at t) (problem.at t') := by
  obtain h | h := h
  · exact L.error problem h
  · exact L.error_tails problem problem h

theorem Meets.missingEnd (h : L.Meets t t') {start start' : Token} (hs : L.tokens start start')
    (keyword : String) : L.errors ((Problem.missingEnd keyword start.start.line).at t)
      ((Problem.missingEnd keyword start'.start.line).at t') := by
  obtain h | h := h
  · exact L.missingEnd keyword h hs
  · exact L.error_tails _ _ h

/-! ### Rules -/

variable {i j k : Nat} {P : α → α → Prop} {Q : β → β → Prop}

theorem Alike.mono {x x' : EStateM.Result Stop Cursor α} (h : L.Alike i P x x') (hij : i ≤ j) :
    L.Alike j P x x' := by
  cases h with
  | ok ha hd hlen => exact .ok ha hd (Nat.le_trans hlen hij)
  | malformed he hd => exact .malformed he hd
  | fault he hd => exact .fault he hd

/-- A sequence, from two cursors: the second parts only have to be looked at where the first
ones return. -/
theorem Alike.bind {r r' : Reader α} {f f' : α → Reader β} {c c' : Cursor}
    (h : L.Alike i P (r c) (r' c')) (hf : ∀ a a' d d', r c = .ok a d → P a a' → L.cursors d d' →
      d.rest.length ≤ i → L.Alike j Q (f a d) (f' a' d')) :
    L.Alike j Q ((r >>= f) c) ((r' >>= f') c') := by
  rw [bind_run, bind_run]
  generalize hr : r c = x at h
  generalize r' c' = x' at h
  cases h with
  | ok ha hd hlen => exact hf _ _ _ _ hr ha hd hlen
  | malformed he hd => exact .malformed he hd
  | fault he hd => exact .fault he hd

namespace Mirrors

theorem mono {k' j' : Nat} {r r' : Reader α} (h : L.Mirrors k j P r r') (hk : k' ≤ k) (hj : j ≤ j') :
    L.Mirrors k' j' P r r' where
  alike hc hlen := (h.alike hc (Nat.le_trans hlen hk)).mono hj

/-- That a token was taken need not be told behind. -/
theorem behind {r r' : Reader α} (h : L.Mirrors (k + 1) k P r r') :
    L.Mirrors (k + 1) (k + 1) P r r' := h.mono (Nat.le_refl _) (Nat.le_succ k)

/-- That a token is taken need not be known in front. -/
theorem front {r r' : Reader α} (h : L.Mirrors (k + 1) k P r r') : L.Mirrors k k P r r' :=
  h.mono (Nat.le_succ k) (Nat.le_refl k)

/-- There are always tokens ahead. -/
theorem zero {r r' : Reader α} : L.Mirrors 0 j P r r' where
  alike hc hlen := absurd (length_pos hc) (Nat.not_lt.mpr hlen)

protected theorem pure {a a' : α} (h : P a a') :
    L.Mirrors k k P (pure a : Reader α) (pure a') where
  alike hc hlen := .ok h hc hlen

protected theorem bind {r r' : Reader α} {f f' : α → Reader β} (h : L.Mirrors k i P r r')
    (hf : ∀ a a', P a a' → L.Mirrors i j Q (f a) (f' a')) :
    L.Mirrors k j Q (r >>= f) (r' >>= f') where
  alike hc hlen :=
    (h.alike hc hlen).bind fun a a' _ _ _ ha hd hlen => (hf a a' ha).alike hd hlen

/-- A reader that looks at the token ahead. -/
theorem current {f f' : Token → Reader β}
    (hf : ∀ t t', L.Meets t t' → L.MirrorsAt t t' k j Q (f t) (f' t')) :
    L.Mirrors k j Q (Grammar.current >>= f) (Grammar.current >>= f') where
  alike hc hlen := (hf _ _ (L.current hc)).alike hc rfl rfl hlen

/-- A reader that looks at the token ahead before it takes some: there it has not come to
the tail. -/
theorem begin {r r' : Reader α} {f f' : Token → α → Reader β} (hr : ∀ k, L.Mirrors (k + 1) k P r r')
    (hf : ∀ start start' a a', L.tokens start start' → P a a' →
      L.Mirrors k j Q (f start a) (f' start' a')) :
    L.Mirrors (k + 1) j Q (do let start ← Grammar.current; let a ← r; f start a)
      (do let start ← Grammar.current; let a ← r'; f' start a) := by
  refine current fun start start' hstart => ⟨?_⟩
  rintro c c' hc rfl rfl hlen
  obtain hstart | hstart := hstart
  · exact ((hr k).alike hc hlen).bind fun a a' _ _ _ ha hd hlen =>
      (hf _ _ a a' hstart ha).alike hd hlen
  · refine ((hr 0).alike hc (L.last hc hstart)).bind fun _ _ _ _ _ _ hd hlen => ?_
    exact absurd (length_pos hd) (Nat.not_lt.mpr hlen)

/-- What was read since a token that is not the tail has a range. -/
theorem spanFrom {f f' : Span → Reader β} (ht : L.tokens t t')
    (hf : ∀ span, L.Mirrors k j Q (f span) (f' (L.move span))) :
    L.Mirrors k j Q (Grammar.spanFrom o t >>= f) (Grammar.spanFrom o' t' >>= f') where
  alike {c c'} hc hlen := by
    rw [bind_of_ok (spanFrom_run o t c), bind_of_ok (spanFrom_run o' t' c'), L.span hc ht]
    exact (hf _).alike hc hlen

theorem numberOf (ht : L.tokens t t') (hk : t.kind = .integer ∨ t.kind = .argument) :
    L.Mirrors k k Eq (Grammar.numberOf t) (Grammar.numberOf t') := by
  unfold Grammar.numberOf
  rw [(L.atom ht).value]
  cases hn : natural t.value.toList with
  | ok n => exact .pure rfl
  | error e => exact ⟨fun hc _ => .fault (L.tooLong ht hk hn) hc⟩

theorem fail (problem : Problem) :
    L.Mirrors k j P (Grammar.fail problem : Reader α) (Grammar.fail problem) where
  alike hc _ := .malformed (Meets.error (L.current hc) problem) hc

/-- A loop with as much fuel as there are tokens ahead. -/
theorem sized (f f' : Nat → Reader α)
    (h : ∀ i n n', i ≤ k → i ≤ n → i ≤ n' → L.Mirrors i j P (f n) (f' n')) :
    L.Mirrors k j P (do f (← get).rest.length) (do f' (← get).rest.length) where
  alike hc hlen := (h _ _ _ hlen (Nat.le_refl _) (L.length_le hc)).alike hc (Nat.le_refl _)

theorem loop (f f' : Nat → Reader α)
    (h : ∀ i n n', i ≤ n → i ≤ n' → L.Mirrors i i P (f n) (f' n')) :
    L.Mirrors k k P (do f (← get).rest.length) (do f' (← get).rest.length) :=
  .sized f f' fun i n n' hi hn hn' => (h i n n' hn hn').mono (Nat.le_refl i) hi

end Mirrors

namespace MirrorsAt

theorem mono {i : Nat} {r r' : Reader α} (h : L.MirrorsAt t t' k j P r r') (hj : j ≤ i) :
    L.MirrorsAt t t' k i P r r' where
  alike hc hcur hcur' hlen := (h.alike hc hcur hcur' hlen).mono hj

/-- What the tokens ahead are need not be known. -/
theorem any {r r' : Reader α} (h : L.Mirrors k j P r r') : L.MirrorsAt t t' k j P r r' where
  alike hc _ _ hlen := h.alike hc hlen

theorem front {r r' : Reader α} (h : L.MirrorsAt t t' (k + 1) k P r r') :
    L.MirrorsAt t t' k k P r r' where
  alike hc ht ht' hlen := h.alike hc ht ht' (Nat.le_succ_of_le hlen)

theorem behind {r r' : Reader α} (h : L.MirrorsAt t t' (k + 1) k P r r') :
    L.MirrorsAt t t' (k + 1) (k + 1) P r r' := h.mono (Nat.le_succ k)

protected theorem bind {r r' : Reader α} {f f' : α → Reader β} (h : L.MirrorsAt t t' k i P r r')
    (hf : ∀ a a', P a a' → L.Mirrors i j Q (f a) (f' a')) :
    L.MirrorsAt t t' k j Q (r >>= f) (r' >>= f') where
  alike hc hcur hcur' hlen :=
    (h.alike hc hcur hcur' hlen).bind fun a a' _ _ _ ha hd hlen => (hf a a' ha).alike hd hlen

/-- A reader that takes the token ahead, if the cursors still correspond behind it. -/
theorem taking {f f' : Token → Reader β} (ht : L.tokens t t') (hk : t.kind ≠ .eof)
    (htake : ∀ {c c' : Cursor} {us us' : List Token}, L.cursors c c' → c.rest = t :: us →
      c'.rest = t' :: us' → L.cursors (c.behind t us) (c'.behind t' us'))
    (hf : L.Mirrors k j Q (f t) (f' t')) :
    L.MirrorsAt t t' (k + 1) j Q (Grammar.advance >>= f) (Grammar.advance >>= f') where
  alike {c c'} hc hcur hcur' hlen := by
    subst hcur hcur'
    obtain ⟨us, hr⟩ := Cursor.rest_of_current hk
    have hk' : c'.current.kind ≠ .eof := (L.atom ht).kind ▸ hk
    obtain ⟨us', hr'⟩ := Cursor.rest_of_current hk'
    rw [bind_of_ok (advance_run hr hk), bind_of_ok (advance_run hr' hk')]
    rw [hr] at hlen
    exact hf.alike (htake hc hr hr') (Nat.le_of_succ_le_succ hlen)

/-- A reader that goes on with the token ahead. -/
theorem advance {f f' : Token → Reader β} (ht : L.Meets t t') (hk : GoesOn t)
    (hf : L.Mirrors k j Q (f t) (f' t')) :
    L.MirrorsAt t t' (k + 1) j Q (Grammar.advance >>= f) (Grammar.advance >>= f') :=
  have hpair := ht.tokens hk.isBefore
  .taking hpair hk.isBefore.ne_eof (fun hc hr hr' => L.advance hc hr hr' hpair hk) hf

/-- A reader that takes the token ahead, even if a statement ends there. -/
theorem pass [L.Passes] {f f' : Token → Reader β} (ht : L.tokens t t') (hk : t.kind ≠ .eof)
    (hf : L.Mirrors k j Q (f t) (f' t')) :
    L.MirrorsAt t t' (k + 1) j Q (Grammar.advance >>= f) (Grammar.advance >>= f') :=
  .taking ht hk (fun hc hr hr' => Passes.pass hc hr hr' ht hk) hf

/-- A loop with as much fuel as there are tokens ahead. -/
theorem sized (f f' : Nat → Reader α)
    (h : ∀ i n n', i ≤ k → i ≤ n → i ≤ n' → L.MirrorsAt t t' i j P (f n) (f' n')) :
    L.MirrorsAt t t' k j P (do f (← get).rest.length) (do f' (← get).rest.length) where
  alike hc hcur hcur' hlen :=
    (h _ _ _ hlen (Nat.le_refl _) (L.length_le hc)).alike hc hcur hcur' (Nat.le_refl _)

/-- A token that is taken and returned. -/
theorem take (ht : L.Meets t t') (hk : GoesOn t) :
    L.MirrorsAt t t' (k + 1) k L.tokens Grammar.advance Grammar.advance := by
  rw [← bind_pure Grammar.advance]
  exact .advance ht hk (.pure (ht.tokens hk.isBefore))

theorem fail {problem problem' : Problem} (h : L.errors (problem.at t) (problem'.at t')) :
    L.MirrorsAt t t' k j P (Grammar.fail problem : Reader α) (Grammar.fail problem') where
  alike hc hcur hcur' _ := by
    subst hcur hcur'
    exact .malformed h hc

/-- What is reported leaves the tokens ahead as they are. -/
theorem report {e e' : SyntaxError} {f f' : Unit → Reader β} (h : L.errors e e')
    (hf : L.MirrorsAt t t' k j Q (f ()) (f' ())) :
    L.MirrorsAt t t' k j Q (Grammar.report e >>= f) (Grammar.report e' >>= f') where
  alike {c c'} hc hcur hcur' hlen := by
    rw [bind_of_ok (report_run e c), bind_of_ok (report_run e' c')]
    exact hf.alike (L.report hc h) hcur hcur' hlen

/-- Nothing is read behind a problem. -/
theorem fail_bind {f f' : α → Reader β} {problem problem' : Problem}
    (h : L.errors (problem.at t) (problem'.at t')) :
    L.MirrorsAt t t' k j Q (Grammar.fail problem >>= f) (Grammar.fail problem' >>= f') where
  alike hc hcur hcur' _ := by
    subst hcur hcur'
    exact .malformed h hc

end MirrorsAt

end Likeness

end Grammar

end Stencil
