import Stencil.Grammar.Statement
import Stencil.Proofs.Erasure

/-!
# The grammar of templates

What templates look like, apart from how they are read. `Derives l ts e us` says
that `ts` begins with an expression of the level `l` whose tree is `e`, and that
`us` is what stands behind it; `Parses` says the same of statements, and
`ParsesPage` of pages. Trees are taken without their places.

The levels run from the tightest to the loosest. Operators of a level with a
`sign?` combine from the left; a comparison has no comparison for an operand.
Statements are followed by what ends them, and blocks by the word `end`, which
all conditions of a chain share.
-/

namespace Stencil

namespace Grammar

/-! ## Expressions -/

/-- The levels of expressions, and what stands between brackets: items with
commas between them, or nothing. -/
inductive Level where
  | primary
  | suffixed
  | signed
  | product
  | sum
  | comparison
  | negation
  | conjunction
  | disjunction
  | items
  | sequence
deriving DecidableEq

/-- The next tighter level, which gives the operands. -/
def Level.operand? : Level → Option Level
  | .suffixed => some .primary
  | .signed => some .suffixed
  | .product => some .signed
  | .sum => some .product
  | .comparison => some .sum
  | .negation => some .comparison
  | .conjunction => some .negation
  | .disjunction => some .conjunction
  | .primary | .items | .sequence => none

/-- The signs that combine operands from the left. -/
def Level.sign? : Level → Token → Option (Node → Node → Node)
  | .product, t => (multiplicative? t).map (.arithmetic nowhere)
  | .sum, t => (additive? t).map (.arithmetic nowhere)
  | .conjunction, t => (word? "and" t).map fun _ => .logic nowhere .and
  | .disjunction, t => (word? "or" t).map fun _ => .logic nowhere .or
  | _, _ => none

/-- `ts` begins with an expression and goes on with `us`. -/
inductive Derives : Level → List Token → Node → List Token → Prop
  | integer {t : Token} {us : List Token} {n : Nat} : t.kind = .integer →
      natural t.value.toList = .ok n → Derives .primary (t :: us) (.const nowhere (.int 0 n)) us
  | float {t : Token} {us : List Token} : t.kind = .float →
      Derives .primary (t :: us) (.const nowhere (.float 0 (decimal t.value.toList))) us
  | string {t : Token} {us : List Token} : t.kind = .string →
      Derives .primary (t :: us) (.const nowhere (.text 0 t.value)) us
  | arguments {t : Token} {us : List Token} : t.kind = .argument → t.value = "" →
      Derives .primary (t :: us) (.name nowhere argumentsName) us
  | argument {t : Token} {us : List Token} {n : Nat} : t.kind = .argument → t.value ≠ "" →
      natural t.value.toList = .ok n → Derives .primary (t :: us) (.argument nowhere n) us
  | literal {t : Token} {us : List Token} {v : Value} : t.kind = .identifier →
      literal? t.value = some v → Derives .primary (t :: us) (.const nowhere v) us
  | name {t : Token} {us : List Token} : t.kind = .identifier → t.value ∉ reservedWords →
      Derives .primary (t :: us) (.name nowhere t.value) us
  | parens {t u : Token} {ts us : List Token} {e : Node} : t.kind = .lparen →
      Derives .disjunction ts e (u :: us) → u.kind = .rparen → Derives .primary (t :: ts) e us
  | list {t u : Token} {ts us : List Token} {e : Node} : t.kind = .lbracket →
      Derives .sequence ts e (u :: us) → u.kind = .rbracket → Derives .primary (t :: ts) e us
  | tighter {l k : Level} {ts us : List Token} {e : Node} : l.operand? = some k →
      Derives k ts e us → Derives l ts e us
  | member {t u : Token} {ts us : List Token} {e : Node} : Derives .suffixed ts e (t :: u :: us) →
      t.kind = .dot → u.kind = .identifier →
      Derives .suffixed ts (.member nowhere e u.value) us
  | item {t u : Token} {ts us vs : List Token} {e key : Node} : Derives .suffixed ts e (t :: us) →
      t.kind = .lbracket → Derives .disjunction us key (u :: vs) → u.kind = .rbracket →
      Derives .suffixed ts (.item nowhere e key) vs
  | call {t u : Token} {ts us vs : List Token} {e : Node} {arguments : List Node} :
      Derives .suffixed ts e (t :: us) → t.kind = .lparen →
      Derives .sequence us (.list nowhere arguments) (u :: vs) → u.kind = .rparen →
      Derives .suffixed ts (.call nowhere e arguments) vs
  | negate {t : Token} {ts us : List Token} {e : Node} : t.kind = .minus →
      Derives .signed ts e us → Derives .signed (t :: ts) (.unary nowhere .negate e) us
  | combine {l k : Level} {t : Token} {ts us vs : List Token} {f : Node → Node → Node}
      {left right : Node} : l.operand? = some k → Derives l ts left (t :: us) →
      l.sign? t = some f → Derives k us right vs → Derives l ts (f left right) vs
  | compare {t : Token} {ts us vs : List Token} {op : Comparison} {left right : Node} :
      Derives .sum ts left (t :: us) → comparison? t = some op → Derives .sum us right vs →
      Derives .comparison ts (.compare nowhere op left right) vs
  | not {t : Token} {ts us : List Token} {e : Node} : t.isWord "not" = true →
      Derives .negation ts e us → Derives .negation (t :: ts) (.unary nowhere .not e) us
  | last {ts us : List Token} {e : Node} : Derives .disjunction ts e us →
      Derives .items ts (.list nowhere [e]) us
  | more {t : Token} {ts us vs : List Token} {e : Node} {items : List Node} :
      Derives .disjunction ts e (t :: us) → t.kind = .comma →
      Derives .items us (.list nowhere items) vs → Derives .items ts (.list nowhere (e :: items)) vs
  | nothing {ts : List Token} : Derives .sequence ts (.list nowhere []) ts
  | some {ts us : List Token} {e : Node} : Derives .items ts e us → Derives .sequence ts e us

/-! ## Statements -/

/-- What comes next ends the statement before it. -/
def Ends (ts : List Token) : Prop := ∃ t ∈ ts.head?, endsStatement t = true

/-- The parts that templates are made of: a statement, a chain of conditions from
its `if` to its `end`, and statements in a row, as a block. -/
inductive Part where
  | statement
  | conditions
  | statements
deriving DecidableEq

/-- `ts` begins with a part of a template and goes on with `us`. -/
inductive Parses : Part → List Token → Node → List Token → Prop
  | expression {ts us : List Token} {e : Node} : Derives .disjunction ts e us →
      Parses .statement ts (.expression nowhere e) us
  | assign {t u : Token} {ts us : List Token} {e : Node} : t.kind = .identifier →
      t.value ∉ reservedWords → u.kind = .assign → Derives .disjunction ts e us →
      Parses .statement (t :: u :: ts) (.assign nowhere t.value e) us
  | loop {t u v w : Token} {ts us vs : List Token} {source body : Node} : t.isWord "for" = true →
      u.kind = .identifier → u.value ∉ reservedWords → v.isWord "in" = true →
      Derives .disjunction ts source us → Ends us → Parses .statements us body (w :: vs) →
      w.isWord "end" = true →
      Parses .statement (t :: u :: v :: ts) (.loop nowhere u.value source body) vs
  | conditions {ts us : List Token} {n : Node} : Parses .conditions ts n us →
      Parses .statement ts n us
  | when {t u : Token} {ts us vs : List Token} {test body : Node} : t.isWord "if" = true →
      Derives .disjunction ts test us → Ends us → Parses .statements us body (u :: vs) →
      u.isWord "end" = true →
      Parses .conditions (t :: ts) (.branch nowhere test body .absent) vs
  | whenElse {t u v : Token} {ts us vs ws : List Token} {test body otherwise : Node} :
      t.isWord "if" = true → Derives .disjunction ts test us → Ends us →
      Parses .statements us body (u :: vs) → u.isWord "else" = true → Ends vs →
      Parses .statements vs otherwise (v :: ws) → v.isWord "end" = true →
      Parses .conditions (t :: ts) (.branch nowhere test body otherwise) ws
  | whenElseWhen {t u : Token} {ts us vs ws : List Token} {test body n : Node} :
      t.isWord "if" = true → Derives .disjunction ts test us → Ends us →
      Parses .statements us body (u :: vs) → u.isWord "else" = true →
      Parses .conditions vs n ws →
      Parses .conditions (t :: ts) (.branch nowhere test body (.block nowhere [n])) ws
  | nothing {ts : List Token} : Parses .statements ts (.block nowhere []) ts
  | separator {t : Token} {ts us : List Token} {b : Node} : isSeparator t = true →
      Parses .statements ts b us → Parses .statements (t :: ts) b us
  | text {t : Token} {ts us : List Token} {nodes : List Node} : t.kind = .text →
      Parses .statements ts (.block nowhere nodes) us →
      Parses .statements (t :: ts) (.block nowhere (.text nowhere t.value :: nodes)) us
  | statement {ts us vs : List Token} {n : Node} {nodes : List Node} :
      Parses .statement ts n us → Ends us → Parses .statements us (.block nowhere nodes) vs →
      Parses .statements ts (.block nowhere (n :: nodes)) vs

/-- `ts` begins with a page and goes on with `us`. Front matter stands behind a
marker; what the template has besides, behind another one. -/
inductive ParsesPage : List Token → Page → List Token → Prop
  | plain {ts us : List Token} {body : Node} : Parses .statements ts body us →
      ParsesPage ts ⟨nowhere, body, .absent⟩ us
  | frontMatter {t : Token} {ts us : List Token} {front : Node} : t.kind = .frontMatterMarker →
      Parses .statements ts front us → ParsesPage (t :: ts) ⟨nowhere, .block nowhere [], front⟩ us
  | both {t u : Token} {ts us vs : List Token} {front body : Node} : t.kind = .frontMatterMarker →
      Parses .statements ts front (u :: us) → u.kind = .frontMatterMarker →
      Parses .statements us body vs → ParsesPage (t :: ts) ⟨nowhere, body, front⟩ vs

/-- The tokens of a template, up to the end of the source, are those of a page. -/
def Grammatical (tokens : List Token) (page : Page) : Prop :=
  ∃ t : Token, t.kind = .eof ∧ ParsesPage tokens page [t]

/-! ## Levels and their readers -/

/-- A level whose operands are combined from the left, and how it is read. -/
structure Chains (l k : Level) {α : Type} (sign? : Token → Option α)
    (combine : Span → α → Node → Node → Node) (meaning : α → Node → Node → Node) : Prop where
  operand : l.operand? = some k
  sign (t : Token) : l.sign? t = (sign? t).map meaning
  combine (span : Span) (a : α) (left right : Node) :
    (combine span a left right).erased = meaning a left.erased right.erased

theorem chains_product : Chains .product .signed multiplicative? .arithmetic (.arithmetic nowhere) :=
  ⟨rfl, fun _ => rfl, fun _ _ _ _ => by rw [Node.erased]⟩

theorem chains_sum : Chains .sum .product additive? .arithmetic (.arithmetic nowhere) :=
  ⟨rfl, fun _ => rfl, fun _ _ _ _ => by rw [Node.erased]⟩

theorem chains_conjunction : Chains .conjunction .negation (word? "and")
    (fun span _ => .logic span .and) (fun _ => .logic nowhere .and) :=
  ⟨rfl, fun _ => rfl, fun _ _ _ _ => by rw [Node.erased]⟩

theorem chains_disjunction : Chains .disjunction .conjunction (word? "or")
    (fun span _ => .logic span .or) (fun _ => .logic nowhere .or) :=
  ⟨rfl, fun _ => rfl, fun _ _ _ _ => by rw [Node.erased]⟩

/-- The level that an entry enters. -/
def Entry.level : Entry → Level
  | .expression => .disjunction
  | .negation => .negation
  | .sign => .signed

/-! ## What derivations consume -/

/-- `us` is left of `ts` when tokens with `p` were taken off. -/
def Consumes (p : Token → Prop) (ts us : List Token) : Prop :=
  ∃ taken, ts = taken ++ us ∧ ∀ t ∈ taken, p t

namespace Consumes

variable {p q : Token → Prop} {ts us vs : List Token} {t : Token}

theorem refl (ts : List Token) : Consumes p ts ts := ⟨[], rfl, fun _ h => nomatch h⟩

theorem cons (ht : p t) (h : Consumes p ts us) : Consumes p (t :: ts) us := by
  obtain ⟨taken, rfl, hp⟩ := h
  refine ⟨t :: taken, rfl, fun u hu => ?_⟩
  cases hu with
  | head => exact ht
  | tail _ hu => exact hp u hu

theorem trans (h : Consumes p ts us) (k : Consumes p us vs) : Consumes p ts vs := by
  obtain ⟨taken, rfl, hp⟩ := h
  obtain ⟨more, rfl, hq⟩ := k
  refine ⟨taken ++ more, (List.append_assoc _ _ _).symm, fun t ht => ?_⟩
  exact (List.mem_append.mp ht).elim (hp t) (hq t)

theorem mono (hpq : ∀ t, p t → q t) (h : Consumes p ts us) : Consumes q ts us := by
  obtain ⟨taken, rfl, hp⟩ := h
  exact ⟨taken, rfl, fun t ht => hpq t (hp t ht)⟩

theorem length_le (h : Consumes p ts us) : us.length ≤ ts.length := by
  obtain ⟨taken, rfl, -⟩ := h
  rw [List.length_append]
  omega

end Consumes

/-- A token that may stand in an expression. -/
def IsInner (t : Token) : Prop :=
  endsStatement t = false ∧ t.kind ≠ .codeEnter ∧ t.kind ≠ .text ∧ t.kind ≠ .assign

instance : DecidablePred IsInner := fun t =>
  inferInstanceAs (Decidable
    (endsStatement t = false ∧ t.kind ≠ .codeEnter ∧ t.kind ≠ .text ∧ t.kind ≠ .assign))

theorem IsInner.of_kind {t : Token} {kind : TokenKind} (h : t.kind = kind)
    (hk : decide (IsInner ⟨kind, "", .start, .start⟩) = true) : IsInner t := by
  subst h
  exact of_decide_eq_true hk

theorem kind_of_isWord {t : Token} {word : String} (h : t.isWord word = true) :
    t.kind = .identifier := by
  simp only [Token.isWord, Bool.and_eq_true, beq_iff_eq] at h
  exact h.1

theorem IsInner.of_sign? {l : Level} {t : Token} {f : Node → Node → Node} (h : l.sign? t = some f) :
    IsInner t := by
  cases l with
  | product =>
    obtain ⟨op, hop, -⟩ := Option.map_eq_some_iff.mp h
    unfold multiplicative? at hop
    split at hop
    · next hk => exact .of_kind hk rfl
    · next hk => exact .of_kind hk rfl
    · next hk => exact .of_kind hk rfl
    · cases hop
  | sum =>
    obtain ⟨op, hop, -⟩ := Option.map_eq_some_iff.mp h
    unfold additive? at hop
    split at hop
    · next hk => exact .of_kind hk rfl
    · next hk => exact .of_kind hk rfl
    · cases hop
  | conjunction | disjunction =>
    obtain ⟨op, hop, -⟩ := Option.map_eq_some_iff.mp h
    unfold word? at hop
    split at hop
    · next hw => exact .of_kind (kind_of_isWord hw) rfl
    · cases hop
  | _ => cases h

theorem IsInner.of_comparison? {t : Token} {op : Comparison} (h : comparison? t = some op) :
    IsInner t := by
  unfold comparison? at h
  split at h
  all_goals first
    | next hk => exact .of_kind hk rfl
    | cases h

/-- An expression consumes tokens that may stand in expressions. -/
theorem Derives.consumes {l : Level} {ts us : List Token} {e : Node} (h : Derives l ts e us) :
    Consumes IsInner ts us := by
  induction h with
  | integer ht | float ht | string ht | arguments ht | argument ht | literal ht | name ht =>
    exact .cons (.of_kind ht rfl) (.refl _)
  | parens ht _ hu ih | list ht _ hu ih =>
    exact .cons (.of_kind ht rfl) (ih.trans (.cons (.of_kind hu rfl) (.refl _)))
  | tighter _ _ ih | some _ ih | last _ ih => exact ih
  | member _ ht hu ih => exact ih.trans (.cons (.of_kind ht rfl) (.cons (.of_kind hu rfl) (.refl _)))
  | item _ ht _ hu ih ihk | call _ ht _ hu ih ihk =>
    exact ih.trans (.cons (.of_kind ht rfl) (ihk.trans (.cons (.of_kind hu rfl) (.refl _))))
  | negate ht _ ih => exact .cons (.of_kind ht rfl) ih
  | combine _ _ hf _ ihl ihr => exact ihl.trans (.cons (.of_sign? hf) ihr)
  | compare _ hop _ ihl ihr => exact ihl.trans (.cons (.of_comparison? hop) ihr)
  | not ht _ ih => exact .cons (.of_kind (kind_of_isWord ht) rfl) ih
  | more _ ht _ ihe ihs => exact ihe.trans (.cons (.of_kind ht rfl) ihs)
  | nothing => exact .refl _

/-- Only between brackets may there be nothing. -/
theorem Derives.length_lt {l : Level} {ts us : List Token} {e : Node} (h : Derives l ts e us)
    (hl : l ≠ .sequence) : us.length < ts.length := by
  induction h with
  | integer | float | string | arguments | argument | literal | name =>
    exact Nat.lt_succ_self _
  | parens _ h | list _ h =>
    have := h.consumes.length_le
    simp only [List.length_cons] at this ⊢
    omega
  | tighter hk _ ih =>
    refine ih fun e => ?_
    subst e
    rename_i l _ _ _ _
    cases l <;> cases hk
  | member _ _ _ ih =>
    have := ih (by decide)
    simp only [List.length_cons] at this
    omega
  | item h _ hk _ ih | call h _ hk _ ih =>
    have := ih (by decide)
    have := hk.consumes.length_le
    simp only [List.length_cons] at *
    omega
  | negate _ _ ih | not _ _ ih =>
    have := ih (by decide)
    simp only [List.length_cons]
    omega
  | combine _ hl' _ hr ihl =>
    have := ihl hl
    have := hr.consumes.length_le
    simp only [List.length_cons] at *
    omega
  | compare _ _ hr ihl | more _ _ hr ihl =>
    have := ihl (by decide)
    have := hr.consumes.length_le
    simp only [List.length_cons] at *
    omega
  | last _ ih => exact ih (by decide)
  | nothing | some => exact absurd rfl hl

/-- A token in front of the end of a section. -/
def IsBefore (t : Token) : Prop := endsSection t = false

instance : DecidablePred IsBefore := fun t => inferInstanceAs (Decidable (endsSection t = false))

theorem IsBefore.of_kind {t : Token} {kind : TokenKind} (h : t.kind = kind)
    (hk : IsBefore ⟨kind, "", .start, .start⟩) : IsBefore t := by
  subst h
  exact hk

theorem IsBefore.ne_eof {t : Token} (h : IsBefore t) : t.kind ≠ .eof := by
  intro hk
  simp [IsBefore, endsSection, hk] at h

theorem IsInner.isBefore {t : Token} (h : IsInner t) : IsBefore t := by
  have he := h.1
  unfold IsBefore endsSection
  unfold endsStatement at he
  split at he <;> simp_all

theorem IsBefore.of_isSeparator {t : Token} (h : isSeparator t = true) : IsBefore t := by
  unfold isSeparator at h
  split at h
  all_goals first
    | next hk => exact .of_kind hk rfl
    | cases h

theorem Parses.consumes {p : Part} {ts us : List Token} {n : Node} (h : Parses p ts n us) :
    Consumes IsBefore ts us := by
  have inner {ts us : List Token} {e : Node} (h : Derives .disjunction ts e us) :
      Consumes IsBefore ts us := h.consumes.mono fun _ => IsInner.isBefore
  have word {t : Token} {w : String} (h : t.isWord w = true) : IsBefore t :=
    .of_kind (kind_of_isWord h) rfl
  induction h with
  | expression h => exact inner h
  | assign ht _ hu h => exact .cons (.of_kind ht rfl) (.cons (.of_kind hu rfl) (inner h))
  | loop ht hu _ hv hs _ _ hw ih =>
    exact .cons (word ht) (.cons (.of_kind hu rfl) (.cons (word hv)
      ((inner hs).trans (ih.trans (.cons (word hw) (.refl _))))))
  | conditions _ ih => exact ih
  | when ht h _ _ hu ih =>
    exact .cons (word ht) ((inner h).trans (ih.trans (.cons (word hu) (.refl _))))
  | whenElse ht h _ _ hu _ _ hv ih ih' =>
    exact .cons (word ht) ((inner h).trans (ih.trans (.cons (word hu)
      (ih'.trans (.cons (word hv) (.refl _))))))
  | whenElseWhen ht h _ _ hu _ ih ih' =>
    exact .cons (word ht) ((inner h).trans (ih.trans (.cons (word hu) ih')))
  | nothing => exact .refl _
  | separator ht _ ih => exact .cons (.of_isSeparator ht) ih
  | text ht _ ih => exact .cons (.of_kind ht rfl) ih
  | statement _ _ _ ih ih' => exact ih.trans ih'

/-- Only a row of statements may be empty. -/
theorem Parses.length_lt {p : Part} {ts us : List Token} {n : Node} (h : Parses p ts n us)
    (hp : p ≠ .statements) : us.length < ts.length := by
  induction h with
  | expression h => exact h.length_lt (by decide)
  | assign _ _ _ h =>
    have := h.consumes.length_le
    simp only [List.length_cons]
    omega
  | loop _ _ _ _ hs _ hb =>
    have := hs.consumes.length_le
    have := hb.consumes.length_le
    simp only [List.length_cons] at *
    omega
  | conditions _ ih => exact ih (by decide)
  | when _ h _ hb =>
    have := h.consumes.length_le
    have := hb.consumes.length_le
    simp only [List.length_cons] at *
    omega
  | whenElse _ h _ hb _ _ ho =>
    have := h.consumes.length_le
    have := hb.consumes.length_le
    have := ho.consumes.length_le
    simp only [List.length_cons] at *
    omega
  | whenElseWhen _ h _ hb _ hn =>
    have := h.consumes.length_le
    have := hb.consumes.length_le
    have := hn.consumes.length_le
    simp only [List.length_cons] at *
    omega
  | nothing | separator | text | statement => exact absurd rfl hp

/-! ## Markers -/

/-- The markers of front matter among tokens. -/
def markersOf (ts : List Token) : List Token := ts.filter fun t => t.kind == .frontMatterMarker

/-- If there are markers, the first token is one, and there is at most one more. -/
def MarkersInFront (ts : List Token) : Prop :=
  markersOf ts = [] ∨
    ∃ t us, ts = t :: us ∧ t.kind = .frontMatterMarker ∧ (markersOf us).length ≤ 1

theorem markersOf_cons_of_kind {t : Token} (h : t.kind = .frontMatterMarker) (ts : List Token) :
    markersOf (t :: ts) = t :: markersOf ts :=
  List.filter_cons_of_pos (by simpa using h)

theorem markersOf_consumes {ts us : List Token} (h : Consumes IsBefore ts us) :
    markersOf ts = markersOf us := by
  obtain ⟨taken, rfl, hp⟩ := h
  have hnone : markersOf taken = [] := by
    refine List.filter_eq_nil_iff.mpr fun t ht hk => ?_
    have hbefore := hp t ht
    simp only [beq_iff_eq] at hk
    simp [IsBefore, endsSection, hk] at hbefore
  rw [markersOf, List.filter_append, ← markersOf, hnone, List.nil_append, ← markersOf]

theorem Parses.markers {p : Part} {ts us : List Token} {n : Node} (h : Parses p ts n us) :
    markersOf ts = markersOf us := markersOf_consumes h.consumes

theorem MarkersInFront.tail_length_le {t : Token} {ts : List Token}
    (h : MarkersInFront (t :: ts)) : (markersOf ts).length ≤ 1 := by
  obtain h | ⟨_, _, ⟨⟩, -, h⟩ := h
  · rw [markersOf, List.filter_cons] at h
    split at h
    · cases h
    · rw [markersOf, h]
      decide
  · exact h

theorem MarkersInFront.eq_nil_of_head? {t : Token} {ts : List Token} (h : MarkersInFront ts)
    (ht : t ∈ ts.head?) (hk : t.kind ≠ .frontMatterMarker) : markersOf ts = [] := by
  obtain h | ⟨u, us, rfl, hu, -⟩ := h
  · exact h
  · cases ht
    exact absurd hu hk

/-! ## What trees hold -/

/-- The texts among tokens. -/
def textsOf (ts : List Token) : List String :=
  (ts.filter fun t => t.kind == .text).map Token.value

theorem textsOf_cons_of_ne {t : Token} (h : t.kind ≠ .text) (ts : List Token) :
    textsOf (t :: ts) = textsOf ts := by
  rw [textsOf, List.filter_cons_of_neg (by simpa using h)]
  rfl

theorem textsOf_cons_of_kind {t : Token} {kind : TokenKind} (h : t.kind = kind)
    (hk : (kind == .text) = false) (ts : List Token) : textsOf (t :: ts) = textsOf ts :=
  textsOf_cons_of_ne (by rw [h]; simpa using hk) ts

theorem textsOf_cons_text {t : Token} (h : t.kind = .text) (ts : List Token) :
    textsOf (t :: ts) = t.value :: textsOf ts := by
  rw [textsOf, List.filter_cons_of_pos (by simpa using h)]
  rfl

theorem textsOf_consumes {ts us : List Token} (h : Consumes IsInner ts us) :
    textsOf ts = textsOf us := by
  obtain ⟨taken, rfl, hp⟩ := h
  induction taken with
  | nil => rfl
  | cons t taken ih =>
    rw [List.cons_append, textsOf_cons_of_ne (hp t List.mem_cons_self).2.2.1]
    exact ih fun u hu => hp u (List.mem_cons_of_mem t hu)

/-- There are no texts inside expressions. -/
theorem Derives.texts {l : Level} {ts us : List Token} {e : Node} (h : Derives l ts e us) :
    e.texts = [] := by
  induction h with
  | integer | float | string | arguments | argument | literal | name | nothing => rfl
  | parens _ _ _ ih | list _ _ _ ih | tighter _ _ ih | some _ ih | member _ _ _ ih
  | negate _ _ ih | not _ _ ih => exact ih
  | item _ _ _ _ ih ihk => rw [Node.texts, ih, ihk, List.append_nil]
  | call _ _ _ _ ih iha =>
    rw [Node.texts] at iha
    rw [Node.texts, ih, iha, List.append_nil]
  | @combine l k _ _ _ _ f left right _ _ hf _ ihl ihr =>
    cases l with
    | product | sum | conjunction | disjunction =>
      obtain ⟨op, -, rfl⟩ := Option.map_eq_some_iff.mp hf
      rw [Node.texts, ihl, ihr, List.append_nil]
    | _ => cases hf
  | compare _ _ _ ihl ihr => rw [Node.texts, ihl, ihr, List.append_nil]
  | last _ ih => rw [Node.texts, textsOfNodes, ih, textsOfNodes, List.append_nil]
  | more _ _ _ ih ihs =>
    rw [Node.texts] at ihs
    rw [Node.texts, textsOfNodes, ih, ihs, List.append_nil]

/-- The texts among the tokens of a part are those of its tree, in order. -/
theorem Parses.texts {p : Part} {ts us : List Token} {n : Node} (h : Parses p ts n us) :
    textsOf ts = n.texts ++ textsOf us := by
  have inner {ts us : List Token} {e : Node} (h : Derives .disjunction ts e us) :
      textsOf ts = e.texts ++ textsOf us := by
    rw [h.texts, textsOf_consumes h.consumes, List.nil_append]
  have word {t : Token} {w : String} (h : t.isWord w = true) (ts : List Token) :
      textsOf (t :: ts) = textsOf ts := textsOf_cons_of_kind (kind_of_isWord h) rfl ts
  induction h with
  | expression h =>
    rw [Node.texts]
    exact inner h
  | assign ht _ hu h =>
    rw [textsOf_cons_of_kind ht rfl, textsOf_cons_of_kind hu rfl, inner h]
    rfl
  | loop ht hu _ hv hs _ _ hw ih =>
    rw [word ht, textsOf_cons_of_kind hu rfl, word hv, inner hs, ih, word hw, Node.texts,
      List.append_assoc]
  | conditions _ ih => exact ih
  | when ht h _ _ hu ih =>
    rw [word ht, inner h, ih, word hu, Node.texts, Node.texts, List.append_nil, List.append_assoc]
  | whenElse ht h _ _ hu _ _ hv ih ih' =>
    rw [word ht, inner h, ih, word hu, ih', word hv, Node.texts, List.append_assoc,
      List.append_assoc]
  | whenElseWhen ht h _ _ hu _ ih ih' =>
    rw [word ht, inner h, ih, word hu, ih', Node.texts, Node.texts, textsOfNodes, textsOfNodes,
      List.append_nil, List.append_assoc, List.append_assoc]
  | nothing => rfl
  | separator ht _ ih =>
    rw [← ih, textsOf_cons_of_ne fun hk => by simp [isSeparator, hk] at ht]
  | text ht _ ih =>
    rw [Node.texts] at ih
    rw [textsOf_cons_text ht, ih, Node.texts, textsOfNodes, Node.texts]
    rfl
  | statement _ _ _ ih ih' =>
    rw [Node.texts] at ih'
    rw [ih, ih', Node.texts, textsOfNodes, List.append_assoc]

theorem ParsesPage.texts {ts us : List Token} {p : Page} (h : ParsesPage ts p us) :
    textsOf ts = p.node.texts ++ textsOf us := by
  cases h with
  | plain h => exact h.texts
  | frontMatter ht h =>
    rw [textsOf_cons_of_kind ht rfl, h.texts]
    show _ = (_ ++ []) ++ _
    rw [List.append_nil]
  | both ht hf hu h =>
    rw [textsOf_cons_of_kind ht rfl, hf.texts, textsOf_cons_of_kind hu rfl, h.texts, ← List.append_assoc]
    rfl

/-! ## What trees bind -/

/-- Expressions bind nothing. -/
theorem Derives.bindsOnly {p : String → Prop} {l : Level} {ts us : List Token} {e : Node}
    (h : Derives l ts e us) : e.BindsOnly p := by
  induction h with
  | integer | float | string | arguments | argument | literal | name | nothing => trivial
  | parens _ _ _ ih | list _ _ _ ih | tighter _ _ ih | some _ ih | member _ _ _ ih
  | negate _ _ ih | not _ _ ih => exact ih
  | item _ _ _ _ ih ihk | call _ _ _ _ ih ihk => exact ⟨ih, ihk⟩
  | @combine l k _ _ _ _ f left right _ _ hf _ ihl ihr =>
    cases l with
    | product | sum | conjunction | disjunction =>
      obtain ⟨op, -, rfl⟩ := Option.map_eq_some_iff.mp hf
      exact ⟨ihl, ihr⟩
    | _ => cases hf
  | compare _ _ _ ihl ihr => exact ⟨ihl, ihr⟩
  | last _ ih => exact ⟨ih, trivial⟩
  | more _ _ _ ih ihs => exact ⟨ih, ihs⟩

/-- The names that identifiers write. -/
def NamesIn (p : String → Prop) (ts : List Token) : Prop :=
  ∀ t ∈ ts, t.kind = .identifier → p t.value

theorem NamesIn.consumes {p : String → Prop} {q : Token → Prop} {ts us : List Token}
    (h : NamesIn p ts) (hc : Consumes q ts us) : NamesIn p us := by
  obtain ⟨taken, rfl, -⟩ := hc
  exact fun t ht => h t (List.mem_append_right taken ht)

theorem NamesIn.tail {p : String → Prop} {t : Token} {ts : List Token} (h : NamesIn p (t :: ts)) :
    NamesIn p ts := fun u hu => h u (List.mem_cons_of_mem t hu)

/-- The names that a template binds are among the identifiers. -/
theorem Parses.bindsOnly {p : String → Prop} {part : Part} {ts us : List Token} {n : Node}
    (h : Parses part ts n us) (hp : NamesIn p ts) : n.BindsOnly p := by
  induction h with
  | expression h => exact h.bindsOnly
  | assign ht _ _ h => exact ⟨hp _ List.mem_cons_self ht, h.bindsOnly⟩
  | loop _ hu _ _ hs _ _ _ ih =>
    exact ⟨hp.tail _ List.mem_cons_self hu, hs.bindsOnly, ih (hp.tail.tail.tail.consumes hs.consumes)⟩
  | conditions _ ih => exact ih hp
  | when _ h _ _ _ ih => exact ⟨h.bindsOnly, ih (hp.tail.consumes h.consumes), trivial⟩
  | whenElse _ h _ hb _ _ _ _ ih ih' =>
    have hq := hp.tail.consumes h.consumes
    exact ⟨h.bindsOnly, ih hq, ih' (hq.consumes hb.consumes).tail⟩
  | whenElseWhen _ h _ hb _ _ ih ih' =>
    have hq := hp.tail.consumes h.consumes
    exact ⟨h.bindsOnly, ih hq, ih' (hq.consumes hb.consumes).tail, trivial⟩
  | nothing => trivial
  | separator _ _ ih => exact ih hp.tail
  | text _ _ ih => exact ⟨trivial, ih hp.tail⟩
  | statement h _ _ ih ih' => exact ⟨ih hp, ih' (hp.consumes h.consumes)⟩

theorem ParsesPage.bindsOnly {p : String → Prop} {ts us : List Token} {page : Page}
    (h : ParsesPage ts page us) (hp : NamesIn p ts) : page.node.BindsOnly p := by
  cases h with
  | plain h => exact ⟨h.bindsOnly hp, trivial⟩
  | frontMatter _ h => exact ⟨trivial, h.bindsOnly hp.tail⟩
  | both _ hf _ h =>
    exact ⟨h.bindsOnly (hp.tail.consumes hf.consumes).tail, hf.bindsOnly hp.tail⟩

end Grammar

end Stencil
