import Stencil.Proofs.Grammar
import Stencil.Proofs.Reading

/-!
# What is read is derived

A reader that returns, and has reported nothing, has gone over tokens that the
grammar derives, with the tree that it returns. For expressions this is
`sound_readExpression`, for statements `sound_readStatements`, and for a whole
page `sound_readPage`.
-/

namespace Stencil.Grammar

variable {α : Type}

/-! ## Steps that return -/

/-- The end is still ahead. -/
def Cursor.Ended (c : Cursor) : Prop := ∃ t ∈ c.rest, t.kind = .eof

theorem Cursor.Ended.consumes {c d : Cursor} {p : Token → Prop} (h : c.Ended)
    (hc : Consumes p c.rest d.rest) (hp : ∀ t, p t → t.kind ≠ .eof) : d.Ended := by
  obtain ⟨t, ht, hk⟩ := h
  obtain ⟨taken, hr, htaken⟩ := hc
  rw [hr] at ht
  cases List.mem_append.mp ht with
  | inl ht => exact absurd hk (hp t (htaken t ht))
  | inr ht => exact ⟨t, ht, hk⟩

theorem Derives.ended {l : Level} {e : Node} {c d : Cursor} (h : Derives l c.rest e d.rest)
    (hc : c.Ended) : d.Ended :=
  hc.consumes h.consumes fun _ ht => ht.isBefore.ne_eof

theorem Parses.ended {p : Part} {n : Node} {c d : Cursor} (h : Parses p c.rest n d.rest)
    (hc : c.Ended) : d.Ended :=
  hc.consumes h.consumes fun _ => IsBefore.ne_eof

theorem Cursor.Ended.tail {c d : Cursor} {t : Token} (h : c.Ended) (hr : c.rest = t :: d.rest)
    (ht : t.kind ≠ .eof) : d.Ended :=
  h.consumes (p := fun t => t.kind ≠ .eof) (hr ▸ .cons ht (.refl _)) fun _ ht => ht

theorem advance_ok {c d : Cursor} {t : Token} (h : advance c = .ok t d)
    (hk : c.current.kind ≠ .eof) :
    c.rest = c.current :: d.rest ∧ t = c.current ∧ d.reported = c.reported := by
  obtain ⟨us, hr⟩ := Cursor.rest_of_current hk
  rw [advance_run hr hk] at h
  cases h
  exact ⟨hr, rfl, rfl⟩

theorem expect_ok {c d : Cursor} {t : Token} {kind : TokenKind} {problem : Problem}
    (h : expect kind problem c = .ok t d) (hk : kind ≠ .eof) :
    c.rest = t :: d.rest ∧ t.kind = kind ∧ d.reported = c.reported := by
  rw [expect] at h
  obtain ⟨u, c₁, h₁, h⟩ := bind_ok h
  cases h₁
  split at h
  · next hkind =>
    have hkind : c.current.kind = kind := by simpa using hkind
    obtain ⟨hr, rfl, hrep⟩ := advance_ok h (hkind ▸ hk)
    exact ⟨hr, hkind, hrep⟩
  · cases h

theorem spanFrom_ok {c d : Cursor} {o : Options} {start : Token} {span : Span}
    (h : spanFrom o start c = .ok span d) : c = d := by
  rw [spanFrom_run] at h
  cases h
  rfl

/-- One token was read, and then what is behind it. -/
theorem advanced_ok {α : Type} {c d : Cursor} {f : Token → Reader α} {a : α}
    (h : (advance >>= f) c = .ok a d) (hk : c.current.kind ≠ .eof) :
    ∃ c₁, f c.current c₁ = .ok a d ∧ c.rest = c.current :: c₁.rest ∧ c₁.reported = c.reported := by
  obtain ⟨t, c₁, h₁, h⟩ := bind_ok h
  obtain ⟨hr, rfl, hrep⟩ := advance_ok h₁ hk
  exact ⟨c₁, h, hr, hrep⟩

/-- One token was read, and what it spans. -/
theorem spanned_ok {α : Type} {c d : Cursor} {o : Options} {start : Token} {f : Span → Reader α}
    {a : α} (h : (do
      let _ ← advance
      let span ← spanFrom o start
      f span : Reader α) c = .ok a d) (hk : c.current.kind ≠ .eof) :
    ∃ span c₁, f span c₁ = .ok a d ∧ c.rest = c.current :: c₁.rest ∧ c₁.reported = c.reported := by
  obtain ⟨c₁, h, hr, hrep⟩ := advanced_ok h hk
  obtain ⟨span, c₂, h₂, h⟩ := bind_ok h
  obtain rfl := spanFrom_ok h₂
  exact ⟨span, c₁, h, hr, hrep⟩

theorem following_ok {c d : Cursor} {u : Token} (h : following c = .ok u d) :
    c = d ∧ (u.kind ≠ c.current.kind → ∃ us, c.rest = c.current :: u :: us) := by
  rw [following] at h
  obtain ⟨c₁, _, h₁, h⟩ := bind_ok h
  cases h₁
  cases hr : c.rest with
  | nil =>
    rw [hr] at h
    cases h
    exact ⟨rfl, fun hne => absurd (by rw [Cursor.current, hr]) hne⟩
  | cons t rest =>
    rw [hr] at h
    cases rest with
    | nil =>
      cases h
      exact ⟨rfl, fun hne => absurd (by rw [Cursor.current_of_rest hr]; rfl) hne⟩
    | cons v us =>
      cases h
      exact ⟨rfl, fun _ => ⟨us, by rw [Cursor.current_of_rest hr]⟩⟩

theorem numberOf_ok {c d : Cursor} {t : Token} {n : Nat} (h : numberOf t c = .ok n d) :
    natural t.value.toList = .ok n ∧ c = d := by
  unfold numberOf at h
  cases hn : natural t.value.toList with
  | ok m =>
    rw [hn] at h
    cases h
    exact ⟨rfl, rfl⟩
  | error e =>
    rw [hn] at h
    cases h

/-! ## Expressions -/

/-- What a reader returns is an expression of a level. -/
def Sound (l : Level) (r : Reader Node) : Prop :=
  ∀ {c d : Cursor} {e : Node}, c.Ended → r c = .ok e d →
    d.reported = c.reported ∧ Derives l c.rest e.erased d.rest

section Chain

variable {l k : Level} {sign? : Token → Option α} {combine : Span → α → Node → Node → Node}
  {meaning : α → Node → Node → Node} (C : Chains l k sign? combine meaning) (o : Options)
  {operand : Reader Node} (ho : Sound k operand)

include C ho

/-- By induction on the number of signs: what was read so far is an expression of
the level. -/
theorem sound_chainFrom {start : Token} {ts : List Token} (fuel : Nat) {left e : Node}
    {c d : Cursor} (hc : c.Ended) (hl : Derives l ts left.erased c.rest)
    (h : chainFrom o start sign? operand combine fuel left c = .ok e d) :
    d.reported = c.reported ∧ Derives l ts e.erased d.rest := by
  induction fuel generalizing left c with
  | zero =>
    cases h
    exact ⟨rfl, hl⟩
  | succ fuel ih =>
    rw [chainFrom] at h
    obtain ⟨t, c₁, h₁, h⟩ := bind_ok h
    cases h₁
    cases ha : sign? c.current with
    | none =>
      rw [ha] at h
      cases h
      exact ⟨rfl, hl⟩
    | some a =>
      rw [ha] at h
      have hf : l.sign? c.current = some (meaning a) := by rw [C.sign, ha]; rfl
      have hne : c.current.kind ≠ .eof := (IsInner.of_sign? hf).isBefore.ne_eof
      obtain ⟨c₁, h, hr, hrep₁⟩ := advanced_ok h hne
      have hc₁ : c₁.Ended := hc.tail hr hne
      obtain ⟨right, c₂, h₂, h⟩ := bind_ok h
      obtain ⟨hrep₂, hright⟩ := ho hc₁ h₂
      obtain ⟨span, c₃, h₃, h⟩ := bind_ok h
      obtain rfl := spanFrom_ok h₃
      rw [hr] at hl
      have hnext : Derives l ts (combine span a left right).erased c₂.rest := by
        rw [C.combine]
        exact .combine C.operand hl hf hright
      obtain ⟨hrep, hd⟩ := ih (hright.ended hc₁) hnext h
      exact ⟨hrep.trans (hrep₂.trans hrep₁), hd⟩

theorem sound_chain : Sound l (chain o sign? operand combine) := by
  intro c d e hc h
  rw [chain] at h
  obtain ⟨t, c₁, h₁, h⟩ := bind_ok h
  cases h₁
  obtain ⟨left, c₂, h₂, h⟩ := bind_ok h
  obtain ⟨hrep, hl⟩ := ho hc h₂
  obtain ⟨c₃, _, h₃, h⟩ := bind_ok h
  cases h₃
  obtain ⟨hrep', hd⟩ := sound_chainFrom C o ho _ (hl.ended hc) (.tighter C.operand hl) h
  exact ⟨hrep'.trans hrep, hd⟩

end Chain

section Levels

variable {o : Options} {inner : Inner} (hi : Sound .disjunction (inner .expression))

include hi

/-- Items with commas between them, and the sign that closes them. -/
theorem sound_readItems {closing : Closing} (fuel : Nat) {c d : Cursor} {items : List Node}
    (hc : c.Ended) (hf : c.rest.length ≤ fuel) (h : readItems inner closing fuel c = .ok items d) :
    d.reported = c.reported ∧ ∃ t, t.kind = closing.kind ∧
      Derives .items c.rest (.list nowhere (erasedNodes items)) (t :: d.rest) := by
  induction fuel generalizing c d items with
  | zero =>
    obtain ⟨t, ht, -⟩ := hc
    have := List.length_pos_of_mem ht
    omega
  | succ fuel ih =>
    rw [readItems] at h
    obtain ⟨e, c₁, h₁, h⟩ := bind_ok h
    obtain ⟨hrep₁, he⟩ := hi hc h₁
    obtain ⟨t, c₂, h₂, h⟩ := bind_ok h
    cases h₂
    have hlen := he.length_lt (by decide)
    split at h
    · next hcomma =>
      have hk : c₁.current.kind = .comma := by simpa using hcomma
      have hne : c₁.current.kind ≠ .eof := by rw [hk]; decide
      obtain ⟨c₃, h, hr, hrep₃⟩ := advanced_ok h hne
      obtain ⟨rest, c₄, h₄, h⟩ := bind_ok h
      have hlen₃ : c₁.rest.length = c₃.rest.length + 1 := by rw [hr, List.length_cons]
      obtain ⟨hrep₄, t, ht, hd⟩ := ih ((he.ended hc).tail hr hne) (by omega) h₄
      cases h
      rw [hr] at he
      exact ⟨hrep₄.trans (hrep₃.trans hrep₁), t, ht, .more he hk hd⟩
    · obtain ⟨u, c₃, h₃, h⟩ := bind_ok h
      obtain ⟨hr, ht, hrep₃⟩ := expect_ok h₃ (by cases closing <;> decide)
      cases h
      rw [hr] at he
      exact ⟨hrep₃.trans hrep₁, u, ht, .last he⟩

theorem sound_readSequence {closing : Closing} {c d : Cursor} {items : List Node}
    (hc : c.Ended) (h : readSequence inner closing c = .ok items d) :
    d.reported = c.reported ∧ ∃ t, t.kind = closing.kind ∧
      Derives .sequence c.rest (.list nowhere (erasedNodes items)) (t :: d.rest) := by
  rw [readSequence] at h
  obtain ⟨t, c₁, h₁, h⟩ := bind_ok h
  cases h₁
  split at h
  · next hclosing =>
    have hk : c.current.kind = closing.kind := by simpa using hclosing
    obtain ⟨c₂, h, hr, hrep⟩ := advanced_ok h (by rw [hk]; cases closing <;> decide)
    cases h
    rw [hr]
    exact ⟨hrep, _, hk, .nothing⟩
  · obtain ⟨c₂, _, h₂, h⟩ := bind_ok h
    cases h₂
    obtain ⟨hrep, t, ht, hd⟩ := sound_readItems hi _ hc (Nat.le_refl _) h
    exact ⟨hrep, t, ht, .some hd⟩

omit hi in
theorem sound_readWord {c d : Cursor} {e : Node} (hk : c.current.kind = .identifier)
    (h : readWord o c.current c = .ok e d) :
    d.reported = c.reported ∧ Derives .primary c.rest e.erased d.rest := by
  have hne : c.current.kind ≠ .eof := by rw [hk]; decide
  rw [readWord] at h
  cases hv : literal? c.current.value with
  | some v =>
    rw [hv] at h
    obtain ⟨span, c₁, h, hr, hrep⟩ := spanned_ok h hne
    cases h
    rw [hr]
    exact ⟨hrep, .literal hk hv⟩
  | none =>
    rw [hv] at h
    dsimp only at h
    split at h
    · cases h
    · next hword =>
      obtain ⟨span, c₁, h, hr, hrep⟩ := spanned_ok h hne
      cases h
      rw [hr]
      exact ⟨hrep, .name hk hword⟩

omit hi in
theorem sound_readArgument {c d : Cursor} {e : Node} (hk : c.current.kind = .argument)
    (h : readArgument o c.current c = .ok e d) :
    d.reported = c.reported ∧ Derives .primary c.rest e.erased d.rest := by
  rw [readArgument] at h
  obtain ⟨span, c₁, h, hr, hrep⟩ := spanned_ok h (by rw [hk]; decide)
  rw [hr]
  split at h
  · next hempty =>
    cases h
    exact ⟨hrep, .arguments hk hempty⟩
  · next hvalue =>
    obtain ⟨n, c₂, h₂, h⟩ := bind_ok h
    obtain ⟨hn, rfl⟩ := numberOf_ok h₂
    cases h
    exact ⟨hrep, .argument hk hvalue hn⟩

theorem sound_readPrimary : Sound .primary (readPrimary o inner) := by
  intro c d e hc h
  rw [readPrimary] at h
  obtain ⟨t, c₁, h₁, h⟩ := bind_ok h
  cases h₁
  cases hk : c.current.kind
  case integer =>
    simp only [hk] at h
    obtain ⟨span, c₁, h, hr, hrep⟩ := spanned_ok h (by rw [hk]; decide)
    obtain ⟨n, c₂, h₂, h⟩ := bind_ok h
    obtain ⟨hn, rfl⟩ := numberOf_ok h₂
    cases h
    rw [hr]
    exact ⟨hrep, .integer hk hn⟩
  case float =>
    simp only [hk] at h
    obtain ⟨span, c₁, h, hr, hrep⟩ := spanned_ok h (by rw [hk]; decide)
    cases h
    rw [hr]
    exact ⟨hrep, .float hk⟩
  case string =>
    simp only [hk] at h
    obtain ⟨span, c₁, h, hr, hrep⟩ := spanned_ok h (by rw [hk]; decide)
    cases h
    rw [hr]
    exact ⟨hrep, .string hk⟩
  case argument =>
    simp only [hk] at h
    exact sound_readArgument hk h
  case identifier =>
    simp only [hk] at h
    exact sound_readWord hk h
  case lparen =>
    simp only [hk] at h
    have hne : c.current.kind ≠ .eof := by rw [hk]; decide
    obtain ⟨c₁, h, hr, hrep₁⟩ := advanced_ok h hne
    obtain ⟨e', c₂, h₂, h⟩ := bind_ok h
    obtain ⟨hrep₂, he⟩ := hi (hc.tail hr hne) h₂
    obtain ⟨u, c₃, h₃, h⟩ := bind_ok h
    obtain ⟨hr', hu, hrep₃⟩ := expect_ok h₃ (by decide)
    cases h
    rw [hr'] at he
    rw [hr]
    exact ⟨hrep₃.trans (hrep₂.trans hrep₁), .parens hk he hu⟩
  case lbracket =>
    simp only [hk] at h
    have hne : c.current.kind ≠ .eof := by rw [hk]; decide
    obtain ⟨c₁, h, hr, hrep₁⟩ := advanced_ok h hne
    obtain ⟨items, c₂, h₂, h⟩ := bind_ok h
    obtain ⟨hrep₂, u, hu, he⟩ := sound_readSequence hi (hc.tail hr hne) h₂
    obtain ⟨span, c₃, h₃, h⟩ := bind_ok h
    obtain rfl := spanFrom_ok h₃
    cases h
    rw [hr]
    exact ⟨hrep₂.trans hrep₁, .list hk he hu⟩
  all_goals
    simp only [hk] at h
    cases h

/-- By induction on the number of suffixes. -/
theorem sound_readSuffixes {start : Token} {ts : List Token} (fuel : Nat) {e e' : Node} {c d : Cursor}
    (hc : c.Ended) (he : Derives .suffixed ts e.erased c.rest)
    (h : readSuffixes o inner start fuel e c = .ok e' d) :
    d.reported = c.reported ∧ Derives .suffixed ts e'.erased d.rest := by
  induction fuel generalizing e c with
  | zero =>
    cases h
    exact ⟨rfl, he⟩
  | succ fuel ih =>
    rw [readSuffixes] at h
    obtain ⟨t, c₁, h₁, h⟩ := bind_ok h
    cases h₁
    cases hk : c.current.kind
    case dot =>
      simp only [hk] at h
      have hne : c.current.kind ≠ .eof := by rw [hk]; decide
      obtain ⟨c₁, h, hr, hrep₁⟩ := advanced_ok h hne
      obtain ⟨name, c₂, h₂, h⟩ := bind_ok h
      obtain ⟨hr₂, hn, hrep₂⟩ := expect_ok h₂ (by decide)
      obtain ⟨span, c₃, h₃, h⟩ := bind_ok h
      obtain rfl := spanFrom_ok h₃
      rw [hr, hr₂] at he
      have hc₂ := (hc.tail hr hne).tail hr₂ (by rw [hn]; decide)
      obtain ⟨hrep, hd⟩ := ih hc₂ (e := .member span e name.value) (.member he hk hn) h
      exact ⟨hrep.trans (hrep₂.trans hrep₁), hd⟩
    case lbracket =>
      simp only [hk] at h
      have hne : c.current.kind ≠ .eof := by rw [hk]; decide
      obtain ⟨c₁, h, hr, hrep₁⟩ := advanced_ok h hne
      obtain ⟨key, c₂, h₂, h⟩ := bind_ok h
      obtain ⟨hrep₂, hkey⟩ := hi (hc.tail hr hne) h₂
      obtain ⟨u, c₃, h₃, h⟩ := bind_ok h
      obtain ⟨hr₃, hu, hrep₃⟩ := expect_ok h₃ (by decide)
      obtain ⟨span, c₄, h₄, h⟩ := bind_ok h
      obtain rfl := spanFrom_ok h₄
      have hc₃ := (hkey.ended (hc.tail hr hne)).tail hr₃ (by rw [hu]; decide)
      rw [hr] at he
      rw [hr₃] at hkey
      obtain ⟨hrep, hd⟩ := ih hc₃ (e := .item span e key) (.item he hk hkey hu) h
      exact ⟨hrep.trans (hrep₃.trans (hrep₂.trans hrep₁)), hd⟩
    case lparen =>
      simp only [hk] at h
      have hne : c.current.kind ≠ .eof := by rw [hk]; decide
      obtain ⟨c₁, h, hr, hrep₁⟩ := advanced_ok h hne
      obtain ⟨arguments, c₂, h₂, h⟩ := bind_ok h
      obtain ⟨hrep₂, u, hu, hargs⟩ := sound_readSequence hi (hc.tail hr hne) h₂
      obtain ⟨span, c₃, h₃, h⟩ := bind_ok h
      obtain rfl := spanFrom_ok h₃
      rw [hr] at he
      have hcall : Derives .suffixed ts (Node.call span e arguments).erased c₂.rest :=
        .call he hk hargs hu
      have hc₂ : c₂.Ended := hc.consumes (d := c₂) (p := IsInner)
        (hr ▸ .cons (.of_kind hk rfl) (hargs.consumes.trans (.cons (.of_kind hu rfl) (.refl _))))
        fun _ ht => ht.isBefore.ne_eof
      obtain ⟨hrep, hd⟩ := ih hc₂ hcall h
      exact ⟨hrep.trans (hrep₂.trans hrep₁), hd⟩
    all_goals
      simp only [hk] at h
      cases h
      exact ⟨rfl, he⟩

theorem sound_readPostfix : Sound .suffixed (readPostfix o inner) := by
  intro c d e hc h
  rw [readPostfix] at h
  obtain ⟨t, c₁, h₁, h⟩ := bind_ok h
  cases h₁
  obtain ⟨e', c₂, h₂, h⟩ := bind_ok h
  obtain ⟨hrep, he⟩ := sound_readPrimary hi hc h₂
  obtain ⟨c₃, _, h₃, h⟩ := bind_ok h
  cases h₃
  obtain ⟨hrep', hd⟩ := sound_readSuffixes hi _ (he.ended hc) (.tighter rfl he) h
  exact ⟨hrep'.trans hrep, hd⟩

variable (hs : Sound .signed (inner .sign))

include hs

theorem sound_readSign : Sound .signed (readSign o inner) := by
  intro c d e hc h
  rw [readSign] at h
  obtain ⟨t, c₁, h₁, h⟩ := bind_ok h
  cases h₁
  split at h
  · next hminus =>
    have hk : c.current.kind = .minus := by simpa using hminus
    have hne : c.current.kind ≠ .eof := by rw [hk]; decide
    obtain ⟨c₁, h, hr, hrep₁⟩ := advanced_ok h hne
    obtain ⟨operand, c₂, h₂, h⟩ := bind_ok h
    obtain ⟨hrep₂, he⟩ := hs (hc.tail hr hne) h₂
    obtain ⟨span, c₃, h₃, h⟩ := bind_ok h
    obtain rfl := spanFrom_ok h₃
    cases h
    rw [hr]
    exact ⟨hrep₂.trans hrep₁, .negate hk he⟩
  · obtain ⟨hrep, hd⟩ := sound_readPostfix hi hc h
    exact ⟨hrep, .tighter rfl hd⟩

theorem sound_readSum : Sound .sum (readSum o inner) :=
  sound_chain chains_sum o (sound_chain chains_product o (sound_readSign hi hs))

theorem sound_readComparison : Sound .comparison (readComparison o inner) := by
  intro c d e hc h
  rw [readComparison] at h
  obtain ⟨t, c₁, h₁, h⟩ := bind_ok h
  cases h₁
  obtain ⟨left, c₂, h₂, h⟩ := bind_ok h
  obtain ⟨hrep₂, hl⟩ := sound_readSum hi hs hc h₂
  obtain ⟨u, c₃, h₃, h⟩ := bind_ok h
  cases h₃
  cases hop : comparison? c₂.current with
  | none =>
    simp only [hop] at h
    cases h
    exact ⟨hrep₂, .tighter rfl hl⟩
  | some op =>
    simp only [hop] at h
    have hne : c₂.current.kind ≠ .eof := (IsInner.of_comparison? hop).isBefore.ne_eof
    obtain ⟨c₃, h, hr, hrep₃⟩ := advanced_ok h hne
    obtain ⟨right, c₄, h₄, h⟩ := bind_ok h
    obtain ⟨hrep₄, hright⟩ := sound_readSum hi hs ((hl.ended hc).tail hr hne) h₄
    obtain ⟨span, c₅, h₅, h⟩ := bind_ok h
    obtain rfl := spanFrom_ok h₅
    cases h
    rw [hr] at hl
    exact ⟨hrep₄.trans (hrep₃.trans hrep₂), .compare hl hop hright⟩

variable (hn : Sound .negation (inner .negation))

include hn

theorem sound_readNegation : Sound .negation (readNegation o inner) := by
  intro c d e hc h
  rw [readNegation] at h
  obtain ⟨t, c₁, h₁, h⟩ := bind_ok h
  cases h₁
  split at h
  · next hword =>
    have hne : c.current.kind ≠ .eof := by rw [kind_of_isWord hword]; decide
    obtain ⟨c₁, h, hr, hrep₁⟩ := advanced_ok h hne
    obtain ⟨operand, c₂, h₂, h⟩ := bind_ok h
    obtain ⟨hrep₂, he⟩ := hn (hc.tail hr hne) h₂
    obtain ⟨span, c₃, h₃, h⟩ := bind_ok h
    obtain rfl := spanFrom_ok h₃
    cases h
    rw [hr]
    exact ⟨hrep₂.trans hrep₁, .not hword he⟩
  · obtain ⟨hrep, hd⟩ := sound_readComparison hi hs hc h
    exact ⟨hrep, .tighter rfl hd⟩

theorem sound_readOr : Sound .disjunction (readOr o inner) :=
  sound_chain chains_disjunction o (sound_chain chains_conjunction o (sound_readNegation hi hs hn))

end Levels

theorem sound_readLevel (o : Options) (levels : Nat) (entry : Entry) :
    Sound entry.level (readLevel o levels entry) := by
  induction levels generalizing entry with
  | zero =>
    intro c d e _ h
    cases h
  | succ levels ih =>
    cases entry with
    | expression => exact sound_readOr (ih .expression) (ih .sign) (ih .negation)
    | negation => exact sound_readNegation (ih .expression) (ih .sign) (ih .negation)
    | sign => exact sound_readSign (ih .expression) (ih .sign)

theorem sound_readExpression (o : Options) : Sound .disjunction (readExpression o) :=
  sound_readLevel o _ .expression

/-! ## Statements -/

/-- The end of a statement was read: it was ahead, and at most a separator was
taken. A separator ahead is not left. -/
structure StatementEnd (c d : Cursor) : Prop where
  ends : Ends c.rest
  reported : d.reported = c.reported
  rest : d.rest = c.rest ∨ ∃ t, (t.kind = .newline ∨ t.kind = .semicolon) ∧ c.rest = t :: d.rest
  left : d.rest = c.rest → ¬ (c.current.kind = .newline ∨ c.current.kind = .semicolon)

/-- What separates statements on a line, or lines, may stand between statements. -/
theorem isSeparator_of_kind {t : Token} (h : t.kind = .newline ∨ t.kind = .semicolon) :
    isSeparator t = true := by
  obtain h | h := h <;> rw [isSeparator, h]

namespace StatementEnd

variable {c d : Cursor} (h : StatementEnd c d)

include h

theorem consumes : Consumes IsBefore c.rest d.rest := by
  obtain hr | ⟨t, ht, hr⟩ := h.rest
  · rw [hr]
    exact .refl _
  · rw [hr]
    exact .cons (.of_isSeparator (isSeparator_of_kind ht)) (.refl _)

theorem ended (hc : c.Ended) : d.Ended := hc.consumes h.consumes fun _ => IsBefore.ne_eof

/-- A separator may stand in front of statements. -/
theorem parses {b : Node} {us : List Token} (hp : Parses .statements d.rest b us) :
    Parses .statements c.rest b us := by
  obtain hr | ⟨t, ht, hr⟩ := h.rest
  · exact hr ▸ hp
  · exact hr ▸ .separator (isSeparator_of_kind ht) hp

end StatementEnd

theorem Cursor.Ended.head {c : Cursor} (h : c.Ended) : c.current ∈ c.rest.head? := by
  obtain ⟨t, ht, -⟩ := h
  cases hr : c.rest with
  | nil =>
    rw [hr] at ht
    cases ht
  | cons u us => rw [Cursor.current_of_rest hr]; rfl

theorem readStatementEnd_ok {c d : Cursor} {a : Unit} (hc : c.Ended)
    (h : readStatementEnd c = .ok a d) : StatementEnd c d := by
  rw [readStatementEnd] at h
  obtain ⟨t, c₁, h₁, h⟩ := bind_ok h
  cases h₁
  dsimp only at h
  cases he : endsStatement c.current with
  | false =>
    simp only [he, Bool.not_false, if_true] at h
    obtain ⟨_, _, h₂, -⟩ := bind_ok h
    cases h₂
  | true =>
    have hends : Ends c.rest := ⟨_, hc.head, he⟩
    simp only [he, Bool.not_true, Bool.false_eq_true, if_false] at h
    split at h
    · next hk =>
      rw [Bool.or_eq_true, beq_iff_eq, beq_iff_eq] at hk
      obtain ⟨c₁, h, hr, hrep⟩ := advanced_ok h (IsBefore.of_isSeparator (isSeparator_of_kind hk)).ne_eof
      cases h
      have hne : d.rest ≠ c.rest := hr ▸ (List.cons_ne_self _ _).symm
      exact ⟨hends, hrep, .inr ⟨_, hk, hr⟩, fun he => absurd he hne⟩
    · next hk =>
      rw [Bool.or_eq_true, beq_iff_eq, beq_iff_eq] at hk
      cases h
      exact ⟨hends, rfl, .inl rfl, fun _ => hk⟩

theorem readName_ok {c d : Cursor} {role : NameRole} {name : String}
    (h : readName role c = .ok name d) : ∃ t, c.rest = t :: d.rest ∧ t.kind = .identifier ∧
      t.value ∉ reservedWords ∧ name = t.value ∧ d.reported = c.reported := by
  rw [readName] at h
  obtain ⟨t, c₁, h₁, h⟩ := bind_ok h
  obtain ⟨hr, ht, hrep⟩ := expect_ok h₁ (by decide)
  dsimp only at h
  split at h
  · obtain ⟨_, _, h₂, -⟩ := bind_ok h
    cases h₂
  · next hword =>
    cases h
    exact ⟨t, hr, ht, hword, rfl, hrep⟩

theorem readBlockEnd_ok {c d : Cursor} {keyword : String} {start : Token} {a : Unit} (hc : c.Ended)
    (h : readBlockEnd keyword start c = .ok a d) :
    ∃ c', c.rest = c.current :: c'.rest ∧ c.current.isWord "end" = true ∧
      c'.reported = c.reported ∧ StatementEnd c' d := by
  rw [readBlockEnd] at h
  obtain ⟨t, c₁, h₁, h⟩ := bind_ok h
  cases h₁
  dsimp only at h
  cases hw : c.current.isWord "end" with
  | false =>
    simp only [hw, Bool.not_false, if_true] at h
    obtain ⟨_, _, h₂, -⟩ := bind_ok h
    cases h₂
  | true =>
    have hne : c.current.kind ≠ .eof := by rw [kind_of_isWord hw]; decide
    simp only [hw, Bool.not_true, Bool.false_eq_true, if_false] at h
    obtain ⟨c₁, h, hr, hrep⟩ := advanced_ok h hne
    exact ⟨c₁, hr, rfl, hrep, readStatementEnd_ok (hc.tail hr hne) h⟩

/-- What a reader of blocks returns, when nothing is reported. -/
def SoundBlock (r : Reader Node) : Prop :=
  ∀ {c d : Cursor} {b : Node}, c.Ended → r c = .ok b d → d.reported = c.reported →
    Parses .statements c.rest b.erased d.rest

/-- What a reader of a part returns, when nothing is reported: the part, and the
end of its statement behind it. -/
def SoundPart (p : Part) (c d : Cursor) (n : Node) : Prop :=
  ∃ c', Parses p c.rest n.erased c'.rest ∧ StatementEnd c' d

section Statements

variable {o : Options} {statements : Reader (List Node)} (hm : Moves Cursor.Extends statements)
  (hs : ∀ {c d : Cursor} {nodes : List Node}, c.Ended → statements c = .ok nodes d →
    d.reported = c.reported → Parses .statements c.rest (.block nowhere (erasedNodes nodes)) d.rest)

include hs in
theorem sound_readBody : SoundBlock (readBody o statements) := by
  intro c d b hc h hrep
  rw [readBody] at h
  obtain ⟨t, c₁, h₁, h⟩ := bind_ok h
  cases h₁
  obtain ⟨nodes, c₂, h₂, h⟩ := bind_ok h
  obtain ⟨span, c₃, h₃, h⟩ := bind_ok h
  obtain rfl := spanFrom_ok h₃
  cases h
  exact hs hc h₂ hrep

theorem sound_readAssignment {c d : Cursor} {n : Node} (hc : c.Ended)
    (ha : ∃ t u us, c.rest = t :: u :: us ∧ u.kind = .assign) (h : readAssignment o c = .ok n d) :
    SoundPart .statement c d n := by
  obtain ⟨t, u, us, hr, hu⟩ := ha
  rw [readAssignment] at h
  obtain ⟨_, c₁, h₁, h⟩ := bind_ok h
  cases h₁
  obtain ⟨name, c₂, h₂, h⟩ := bind_ok h
  obtain ⟨t', hr₂, ht, hword, rfl, -⟩ := readName_ok h₂
  have hc₂ := hc.tail hr₂ (by rw [ht]; decide)
  rw [hr] at hr₂
  obtain ⟨rfl, hus⟩ := List.cons.inj hr₂
  have hcur : c₂.current = u := Cursor.current_of_rest hus.symm
  have hne : c₂.current.kind ≠ .eof := by rw [hcur, hu]; decide
  obtain ⟨c₃, h, hr₃, -⟩ := advanced_ok h hne
  have hc₃ := hc₂.tail hr₃ hne
  obtain ⟨e, c₄, h₄, h⟩ := bind_ok h
  obtain ⟨-, he⟩ := sound_readExpression o hc₃ h₄
  obtain ⟨span, c₅, h₅, h⟩ := bind_ok h
  obtain rfl := spanFrom_ok h₅
  obtain ⟨_, c₆, h₆, h⟩ := bind_ok h
  cases h
  refine ⟨c₄, ?_, readStatementEnd_ok (he.ended hc₃) h₆⟩
  rw [hr, hus, hr₃]
  exact .assign ht hword (hcur ▸ hu) he

theorem sound_readExpressionStatement {c d : Cursor} {n : Node} (hc : c.Ended)
    (h : readExpressionStatement o c = .ok n d) : SoundPart .statement c d n := by
  rw [readExpressionStatement] at h
  obtain ⟨_, c₁, h₁, h⟩ := bind_ok h
  cases h₁
  obtain ⟨e, c₂, h₂, h⟩ := bind_ok h
  obtain ⟨-, he⟩ := sound_readExpression o hc h₂
  obtain ⟨span, c₃, h₃, h⟩ := bind_ok h
  obtain rfl := spanFrom_ok h₃
  obtain ⟨_, c₄, h₄, h⟩ := bind_ok h
  cases h
  exact ⟨c₂, .expression he, readStatementEnd_ok (he.ended hc) h₄⟩

/-- A chain of conditions has a place. -/
theorem Parses.span? {ts us : List Token} {n : Node} (h : Parses .conditions ts n.erased us) :
    ∃ span, n.span? = some span := by
  generalize hn : n.erased = m at h
  cases n with
  | branch span => exact ⟨span, rfl⟩
  | _ =>
    rw [Node.erased] at hn
    subst hn
    cases h

include hm hs

/-- What stands behind the body of a condition, when the conditions behind an `else` are
read well. -/
theorem sound_readBranchTail {fuel : Nat} {start t : Token} {test body n : Node} {ts us : List Token}
    {c d : Cursor}
    (ih : ∀ {c d : Cursor} {n : Node}, c.Ended → c.current.isWord "if" = true →
      c.rest.length ≤ fuel → readBranch o statements fuel c = .ok n d →
      d.reported = c.reported → SoundPart .conditions c d n)
    (hw : t.isWord "if" = true) (htest : Derives .disjunction ts test.erased us) (hends : Ends us)
    (hbody : Parses .statements us body.erased c.rest) (hc : c.Ended) (hf : c.rest.length ≤ fuel)
    (h : readBranchTail o statements fuel start test body c = .ok n d)
    (hrep : d.reported = c.reported) :
    ∃ c', Parses .conditions (t :: ts) n.erased c'.rest ∧ StatementEnd c' d := by
  rw [readBranchTail] at h
  obtain ⟨_, c₁, h₁, h⟩ := bind_ok h
  cases h₁
  split at h
  · next helse =>
    have hne : c.current.kind ≠ .eof := by rw [kind_of_isWord helse]; decide
    obtain ⟨c₁, h, hr₁, hrep₁⟩ := advanced_ok h hne
    have hc₁ := hc.tail hr₁ hne
    have hlen : c₁.rest.length ≤ fuel := by
      rw [hr₁, List.length_cons] at hf
      omega
    rw [hr₁] at hbody
    obtain ⟨_, c₂, h₂, h⟩ := bind_ok h
    cases h₂
    split at h
    · next hif =>
      obtain ⟨nested, c₂, h₂, h⟩ := bind_ok h
      obtain ⟨span, c₃, h₃, h⟩ := bind_ok h
      obtain rfl := spanFrom_ok h₃
      cases h
      obtain ⟨c', hn, hend⟩ := ih hc₁ hif hlen h₂ (hrep.trans hrep₁.symm)
      obtain ⟨place, hplace⟩ := hn.span?
      rw [hplace]
      exact ⟨c', .whenElseWhen hw htest hends hbody helse hn, hend⟩
    · obtain ⟨_, c₂, h₂, h⟩ := bind_ok h
      obtain ⟨otherwise, c₃, h₃, h⟩ := bind_ok h
      obtain ⟨_, c₄, h₄, h⟩ := bind_ok h
      obtain ⟨span, c₅, h₅, h⟩ := bind_ok h
      obtain rfl := spanFrom_ok h₅
      cases h
      have hend₂ := readStatementEnd_ok hc₁ h₂
      have hext₃ : c₂.Extends c₃ := after_of_ok h₃ ▸ steps_extends.readBody o hm c₂
      have hext₄ : c₃.Extends d := after_of_ok h₄ ▸ steps_extends.readBlockEnd "if" start c₃
      have hbefore : c₂.reported = c.reported := hend₂.reported.trans hrep₁
      obtain ⟨hrep₃, -⟩ := hext₃.antisymm hext₄ (hrep.trans hbefore.symm)
      have hother := hend₂.parses (sound_readBody hs (hend₂.ended hc₁) h₃ hrep₃)
      obtain ⟨c', hr', hw', -, hend⟩ := readBlockEnd_ok (hother.ended hc₁) h₄
      rw [hr'] at hother
      exact ⟨c', .whenElse hw htest hends hbody helse hend₂.ends hother hw', hend⟩
  · obtain ⟨_, c₁, h₁, h⟩ := bind_ok h
    obtain ⟨span, c₂, h₂, h⟩ := bind_ok h
    obtain rfl := spanFrom_ok h₂
    cases h
    obtain ⟨c', hr', hw', -, hend⟩ := readBlockEnd_ok hc h₁
    rw [hr'] at hbody
    exact ⟨c', .when hw htest hends hbody hw', hend⟩

/-- By induction on the number of conditions. -/
theorem sound_readBranch (fuel : Nat) {c d : Cursor} {n : Node} (hc : c.Ended)
    (hw : c.current.isWord "if" = true) (hf : c.rest.length ≤ fuel)
    (h : readBranch o statements fuel c = .ok n d) (hrep : d.reported = c.reported) :
    SoundPart .conditions c d n := by
  induction fuel generalizing c d n with
  | zero =>
    obtain ⟨t, ht, -⟩ := hc
    have := List.length_pos_of_mem ht
    omega
  | succ fuel ih =>
    have hne : c.current.kind ≠ .eof := by rw [kind_of_isWord hw]; decide
    rw [readBranch_succ] at h
    obtain ⟨c₁, h, hr₁, hrep₁⟩ := advanced_ok h hne
    have hc₁ := hc.tail hr₁ hne
    obtain ⟨test, c₂, h₂, h⟩ := bind_ok h
    obtain ⟨hrep₂, htest⟩ := sound_readExpression o hc₁ h₂
    have hc₂ := htest.ended hc₁
    obtain ⟨_, c₃, h₃, h⟩ := bind_ok h
    have hend := readStatementEnd_ok hc₂ h₃
    obtain ⟨body, c₄, h₄, h⟩ := bind_ok h
    have hext₄ : c₃.Extends c₄ := after_of_ok h₄ ▸ steps_extends.readBody o hm c₃
    have hext : c₄.Extends d := after_of_ok h ▸
      steps_extends.readBranchTail o hm (steps_extends.readBranch o hm fuel) c.current test body c₄
    have hbefore : c₃.reported = c.reported := hend.reported.trans (hrep₂.trans hrep₁)
    obtain ⟨hrep₄, hrep₅⟩ := hext₄.antisymm hext (hrep.trans hbefore.symm)
    have hbody := hend.parses (sound_readBody hs (hend.ended hc₂) h₄ hrep₄)
    have hlen : c₄.rest.length ≤ fuel := by
      have := htest.consumes.length_le
      have := hbody.consumes.length_le
      rw [hr₁, List.length_cons] at hf
      omega
    rw [SoundPart, hr₁]
    exact sound_readBranchTail hm hs ih hw htest hend.ends hbody (hbody.ended hc₂) hlen h hrep₅

theorem sound_readLoop {c d : Cursor} {n : Node} (hc : c.Ended)
    (hw : c.current.isWord "for" = true) (h : readLoop o statements c = .ok n d)
    (hrep : d.reported = c.reported) : SoundPart .statement c d n := by
  have hne : c.current.kind ≠ .eof := by rw [kind_of_isWord hw]; decide
  rw [readLoop] at h
  obtain ⟨c₁, h, hr₁, hrep₁⟩ := advanced_ok h hne
  obtain ⟨target, c₂, h₂, h⟩ := bind_ok h
  obtain ⟨t, hr₂, ht, hword, rfl, hrep₂⟩ := readName_ok h₂
  have hc₂ := (hc.tail hr₁ hne).tail hr₂ (by rw [ht]; decide)
  obtain ⟨_, c₃, h₃, h⟩ := bind_ok h
  cases h₃
  dsimp only at h
  cases hin : c₂.current.isWord "in" with
  | false =>
    simp only [hin, Bool.not_false, if_true] at h
    obtain ⟨_, _, h₄, -⟩ := bind_ok h
    cases h₄
  | true =>
    have hne₂ : c₂.current.kind ≠ .eof := by rw [kind_of_isWord hin]; decide
    simp only [hin, Bool.not_true, Bool.false_eq_true, if_false] at h
    obtain ⟨c₃, h, hr₃, hrep₃⟩ := advanced_ok h hne₂
    have hc₃ := hc₂.tail hr₃ hne₂
    obtain ⟨source, c₄, h₄, h⟩ := bind_ok h
    obtain ⟨hrep₄, hsource⟩ := sound_readExpression o hc₃ h₄
    have hc₄ := hsource.ended hc₃
    obtain ⟨_, c₅, h₅, h⟩ := bind_ok h
    have hend := readStatementEnd_ok hc₄ h₅
    obtain ⟨body, c₆, h₆, h⟩ := bind_ok h
    obtain ⟨_, c₇, h₇, h⟩ := bind_ok h
    obtain ⟨span, c₈, h₈, h⟩ := bind_ok h
    obtain rfl := spanFrom_ok h₈
    cases h
    have hext₆ : c₅.Extends c₆ := after_of_ok h₆ ▸ steps_extends.readBody o hm c₅
    have hext₇ : c₆.Extends d := after_of_ok h₇ ▸ steps_extends.readBlockEnd "for" c.current c₆
    have hbefore : c₅.reported = c.reported :=
      hend.reported.trans (hrep₄.trans (hrep₃.trans (hrep₂.trans hrep₁)))
    obtain ⟨hrep₆, -⟩ := hext₆.antisymm hext₇ (hrep.trans hbefore.symm)
    have hbody := hend.parses (sound_readBody hs (hend.ended hc₄) h₆ hrep₆)
    obtain ⟨c', hr', hw', -, hend'⟩ := readBlockEnd_ok (hbody.ended hc₄) h₇
    refine ⟨c', ?_, hend'⟩
    rw [hr'] at hbody
    rw [hr₁, hr₂, hr₃]
    exact .loop hw ht hword hin hsource hend.ends hbody hw'

theorem sound_readStatement {c d : Cursor} {n : Node} (hc : c.Ended)
    (h : readStatement o statements c = .ok n d) (hrep : d.reported = c.reported) :
    SoundPart .statement c d n := by
  rw [readStatement] at h
  obtain ⟨t, c₁, h₁, h⟩ := bind_ok h
  cases h₁
  split at h
  · next hw =>
    obtain ⟨c₂, _, h₂, h⟩ := bind_ok h
    cases h₂
    obtain ⟨c', hn, hend⟩ := sound_readBranch hm hs _ hc hw (Nat.le_refl _) h hrep
    exact ⟨c', .conditions hn, hend⟩
  · split at h
    · next hw => exact sound_readLoop hm hs hc hw h hrep
    · obtain ⟨u, c₂, h₂, h⟩ := bind_ok h
      obtain ⟨rfl, hfollowing⟩ := following_ok h₂
      split at h
      · next hk =>
        rw [Bool.and_eq_true, beq_iff_eq, beq_iff_eq] at hk
        obtain ⟨us, hr⟩ := hfollowing (by rw [hk.1, hk.2]; decide)
        exact sound_readAssignment hc ⟨_, _, _, hr, hk.2⟩ h
      · exact sound_readExpressionStatement hc h

omit hs in
/-- A statement that was skipped was reported. -/
theorem readOrSkip_ok {c d : Cursor} {node? : Option Node}
    (h : readOrSkip o statements c = .ok node? d) (hrep : d.reported = c.reported) :
    ∃ n, node? = some n ∧ readStatement o statements c = .ok n d := by
  have hext := steps_extends.readStatement o hm c
  rw [readOrSkip_run] at h
  cases hst : readStatement o statements c with
  | ok n e =>
    rw [hst] at h
    cases h
    exact ⟨n, rfl, rfl⟩
  | error x e =>
    rw [after_of_error hst] at hext
    rw [hst] at h
    cases x with
    | fault => cases h
    | malformed problem =>
      obtain ⟨_, c₁, h₁, h⟩ := bind_ok h
      rw [report_run] at h₁
      cases h₁
      obtain ⟨c₂, _, h₂, h⟩ := bind_ok h
      cases h₂
      obtain ⟨_, c₃, h₃, h⟩ := bind_ok h
      cases h
      have hskip := steps_extends.skipStatement e.rest.length
        { e with reported := e.reported ++ [problem] }
      rw [after_of_ok h₃, Cursor.Extends, hrep] at hskip
      have := hext.length_le
      have := hskip.length_le
      rw [List.length_append, List.length_singleton] at this
      omega

end Statements

theorem sound_readStatements {o : Options} (fuel : Nat) {c d : Cursor} {nodes : List Node}
    (hc : c.Ended) (h : readStatements o fuel c = .ok nodes d) (hrep : d.reported = c.reported) :
    Parses .statements c.rest (.block nowhere (erasedNodes nodes)) d.rest := by
  induction fuel generalizing c d nodes with
  | zero =>
    cases h
    exact .nothing
  | succ fuel ih =>
    rw [readStatements] at h
    obtain ⟨t, c₁, h₁, h⟩ := bind_ok h
    cases h₁
    split at h
    · cases h
      exact .nothing
    · split at h
      · next hsep =>
        have hne : c.current.kind ≠ .eof := (IsBefore.of_isSeparator hsep).ne_eof
        obtain ⟨c₁, h, hr, hrep₁⟩ := advanced_ok h hne
        rw [hr]
        exact .separator hsep (ih (hc.tail hr hne) h (hrep.trans hrep₁.symm))
      · split at h
        · next htext =>
          have hk : c.current.kind = .text := by simpa using htext
          have hne : c.current.kind ≠ .eof := by rw [hk]; decide
          obtain ⟨c₁, h, hr, hrep₁⟩ := advanced_ok h hne
          obtain ⟨span, c₂, h₂, h⟩ := bind_ok h
          obtain rfl := spanFrom_ok h₂
          obtain ⟨rest, c₃, h₃, h⟩ := bind_ok h
          cases h
          rw [hr]
          exact .text hk (ih (hc.tail hr hne) h₃ (hrep.trans hrep₁.symm))
        · obtain ⟨node?, c₁, h₁, h⟩ := bind_ok h
          obtain ⟨rest, c₂, h₂, h⟩ := bind_ok h
          cases h
          have hext₁ : c.Extends c₁ :=
            after_of_ok h₁ ▸ steps_extends.readOrSkip o (steps_extends.readStatements o fuel) c
          have hext₂ : c₁.Extends d := after_of_ok h₂ ▸ steps_extends.readStatements o fuel c₁
          obtain ⟨hrep₁, hrep₂⟩ := hext₁.antisymm hext₂ hrep
          obtain ⟨n, rfl, hst⟩ := readOrSkip_ok (steps_extends.readStatements o fuel) h₁ hrep₁
          obtain ⟨c', hn, hend⟩ := sound_readStatement (steps_extends.readStatements o fuel)
            (fun hc h hrep => ih hc h hrep) hc hst hrep₁
          exact .statement hn hend.ends (hend.parses (ih (hend.ended (hn.ended hc)) h₂ hrep₂))

/-! ## Pages -/

/-- Nothing reported means that no word without a block was met: what is read is one
row of statements, up to the end of the section. -/
theorem readSectionBody_ok {o : Options} {fuel : Nat} {c d : Cursor} {nodes : List Node}
    (hf : 0 < fuel) (h : readSectionBody o fuel c = .ok nodes d) (hrep : d.reported = c.reported) :
    readStatements o (c.rest.length + 1) c = .ok nodes d ∧ endsSection d.current = true := by
  cases fuel with
  | zero => cases hf
  | succ fuel =>
    rw [readSectionBody] at h
    obtain ⟨_, c₁, h₁, h⟩ := bind_ok h
    cases h₁
    obtain ⟨body, c₁, h₁, h⟩ := bind_ok h
    obtain ⟨t, c₂, h₂, h⟩ := bind_ok h
    cases h₂
    split at h
    · next hend =>
      cases h
      exact ⟨h₁, hend⟩
    · obtain ⟨_, c₂, h₂, h⟩ := bind_ok h
      rw [report_run] at h₂
      cases h₂
      obtain ⟨u, c₃, h₃, h⟩ := bind_ok h
      obtain ⟨more, c₄, h₄, h⟩ := bind_ok h
      cases h
      have hext₁ : c.Extends c₁ := after_of_ok h₁ ▸ steps_extends.readStatements o _ c
      have hext₃ := steps_extends.advance
        { c₁ with reported := c₁.reported ++ [(Problem.unmatched c₁.current.value).at c₁.current] }
      rw [after_of_ok h₃] at hext₃
      have hext₄ : c₃.Extends d := after_of_ok h₄ ▸ steps_extends.readSectionBody o fuel c₃
      have := hext₁.length_le
      have := (hext₃.trans hext₄).length_le
      rw [hrep, List.length_append, List.length_singleton] at this
      omega

/-- What ends a section is the end, or a marker. -/
theorem Cursor.Ended.end_of_endsSection {c : Cursor} (hc : c.Ended)
    (h : endsSection c.current = true) (hk : c.current.kind ≠ .frontMatterMarker) :
    ∃ t ∈ c.rest.head?, t.kind = .eof := by
  refine ⟨_, hc.head, ?_⟩
  unfold endsSection at h
  split at h
  · assumption
  · contradiction
  · cases h

/-- A section that was read without a complaint. -/
theorem readSection_ok {o : Options} {c d : Cursor} {b : Node} (h : readSection o c = .ok b d)
    (hrep : d.reported = c.reported) : ∃ span nodes, b = .block span nodes ∧
      readStatements o (c.rest.length + 1) c = .ok nodes d ∧ endsSection d.current = true := by
  rw [readSection] at h
  obtain ⟨_, c₁, h₁, h⟩ := bind_ok h
  cases h₁
  obtain ⟨c₁, _, h₁, h⟩ := bind_ok h
  cases h₁
  obtain ⟨nodes, c₂, h₂, h⟩ := bind_ok h
  obtain ⟨span, c₃, h₃, h⟩ := bind_ok h
  obtain rfl := spanFrom_ok h₃
  cases h
  exact ⟨span, nodes, rfl, readSectionBody_ok (Nat.succ_pos _) h₂ hrep⟩

theorem sound_readSection {o : Options} {c d : Cursor} {b : Node} (hc : c.Ended)
    (h : readSection o c = .ok b d) (hrep : d.reported = c.reported) :
    Parses .statements c.rest b.erased d.rest ∧ endsSection d.current = true := by
  obtain ⟨span, nodes, rfl, hread, hend⟩ := readSection_ok h hrep
  exact ⟨sound_readStatements _ hc hread hrep, hend⟩

theorem sound_readPageBody {o : Options} {c d : Cursor} {start : Token} {front : Node} {p : Page}
    (hc : c.Ended) (h : readPageBody o start front c = .ok p d) (hrep : d.reported = c.reported) :
    ∃ b, p.erased = ⟨nowhere, b, front.erased⟩ ∧ Parses .statements c.rest b d.rest ∧
      endsSection d.current = true := by
  obtain ⟨body, c₁, h₁, h⟩ := bind_ok h
  obtain ⟨span, c₂, h₂, h⟩ := bind_ok h
  obtain rfl := spanFrom_ok h₂
  cases h
  obtain ⟨hbody, hend⟩ := sound_readSection hc h₁ hrep
  exact ⟨body.erased, rfl, hbody, hend⟩

/-- A row of statements that ends a section ends the source, unless it ends at a marker
that may not be there. -/
theorem Parses.end_of_markers {c d : Cursor} {b : Node} (h : Parses .statements c.rest b d.rest)
    (hc : c.Ended) (hend : endsSection d.current = true) (hm : markersOf c.rest = []) :
    ∃ t ∈ d.rest.head?, t.kind = .eof := by
  refine (h.ended hc).end_of_endsSection hend fun hk => ?_
  obtain ⟨us, hr⟩ := Cursor.rest_of_current (c := d) (by rw [hk]; decide)
  rw [h.markers, hr, markersOf_cons_of_kind hk] at hm
  cases hm

theorem sound_readPageTail {o : Options} {c d : Cursor} {start t : Token} {front : Node}
    {ts : List Token} {p : Page} (hk : t.kind = .frontMatterMarker)
    (hfront : Parses .statements ts front.erased c.rest) (hc : c.Ended)
    (hend : endsSection c.current = true) (h : readPageTail o start front c = .ok p d)
    (hrep : d.reported = c.reported) :
    ParsesPage (t :: ts) p.erased d.rest ∧
      (MarkersInFront (t :: ts) → ∃ u ∈ d.rest.head?, u.kind = .eof) := by
  rw [readPageTail] at h
  obtain ⟨_, c₁, h₁, h⟩ := bind_ok h
  cases h₁
  split at h
  · next hmarker =>
    have hk₁ : c.current.kind = .frontMatterMarker := by simpa using hmarker
    have hne : c.current.kind ≠ .eof := by rw [hk₁]; decide
    obtain ⟨c₁, h, hr₁, hrep₁⟩ := advanced_ok h hne
    have hc₁ := hc.tail hr₁ hne
    obtain ⟨b, hp, hbody, hend₁⟩ := sound_readPageBody hc₁ h (hrep.trans hrep₁.symm)
    rw [hr₁] at hfront
    rw [hp]
    refine ⟨.both hk hfront hk₁ hbody, fun hm => hbody.end_of_markers hc₁ hend₁ ?_⟩
    -- the two markers are the ones in front
    have hcount := hm.tail_length_le
    rw [hfront.markers, markersOf_cons_of_kind hk₁, List.length_cons] at hcount
    exact List.length_eq_zero_iff.mp (by omega)
  · next hmarker =>
    obtain ⟨body, c₁, h₁, h⟩ := bind_ok h
    rw [readSection_run_end hend] at h₁
    cases h₁
    obtain ⟨span, c₂, h₂, h⟩ := bind_ok h
    obtain rfl := spanFrom_ok h₂
    cases h
    exact ⟨.frontMatter hk hfront, fun _ => hc.end_of_endsSection hend (by simpa using hmarker)⟩

theorem sound_readPage {o : Options} {c d : Cursor} {p : Page} (hc : c.Ended)
    (h : readPage o c = .ok p d) (hrep : d.reported = c.reported) :
    ParsesPage c.rest p.erased d.rest ∧
      (MarkersInFront c.rest → ∃ t ∈ d.rest.head?, t.kind = .eof) := by
  rw [readPage_eq] at h
  obtain ⟨start, c₁, h₁, h⟩ := bind_ok h
  cases h₁
  split at h
  · next hmarker =>
    have hk : c.current.kind = .frontMatterMarker := by simpa using hmarker
    have hne : c.current.kind ≠ .eof := by rw [hk]; decide
    obtain ⟨c₁, h, hr₁, hrep₁⟩ := advanced_ok h hne
    have hc₁ := hc.tail hr₁ hne
    obtain ⟨front, c₂, h₂, h⟩ := bind_ok h
    have hext₂ : c₁.Extends c₂ := after_of_ok h₂ ▸ steps_extends.readSection o c₁
    have hext : c₂.Extends d := after_of_ok h ▸ steps_extends.readPageTail o c.current front c₂
    obtain ⟨hrep₂, hrep₃⟩ := hext₂.antisymm hext (hrep.trans hrep₁.symm)
    obtain ⟨hfront, hend⟩ := sound_readSection hc₁ h₂ hrep₂
    rw [hr₁]
    exact sound_readPageTail hk hfront (hfront.ended hc₁) hend h hrep₃
  · next hmarker =>
    obtain ⟨b, hp, hbody, hend⟩ := sound_readPageBody hc h hrep
    rw [hp]
    refine ⟨.plain hbody, fun hm => hbody.end_of_markers hc hend ?_⟩
    exact hm.eq_nil_of_head? hc.head (by simpa using hmarker)

end Stencil.Grammar
