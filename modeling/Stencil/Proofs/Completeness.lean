import Stencil.Proofs.Grammar
import Stencil.Proofs.Reading

/-!
# What is derived is read

Tokens that the grammar derives are read without a complaint, and with the tree
of the derivation, unless the expressions among them nest too deeply: a limit
that is greater than the number of tokens is always enough.
-/

namespace Stencil.Grammar

variable {α β : Type}

/-! ## Where a phrase begins and where it ends -/

/-- A token that a primary expression may begin with. -/
def startsPrimary (t : Token) : Bool :=
  match t.kind with
  | .integer | .float | .string | .argument | .lparen | .lbracket => true
  | .identifier => (literal? t.value).isSome || !reservedWords.contains t.value
  | _ => false

/-- A token that a phrase of a level may begin with. -/
def Level.starts : Level → Token → Bool
  | .primary, t | .suffixed, t => startsPrimary t
  | .signed, t | .product, t | .sum, t | .comparison, t => startsPrimary t || t.kind == .minus
  | _, t => startsPrimary t || t.kind == .minus || t.isWord "not"

theorem Level.starts_of_operand? {l k : Level} (h : l.operand? = some k) {t : Token}
    (ht : k.starts t = true) : l.starts t = true := by
  cases l <;> cases h <;> simp only [starts] at ht ⊢ <;> simp only [ht, Bool.true_or]

theorem Derives.starts {l : Level} {ts us : List Token} {e : Node} (h : Derives l ts e us)
    (hl : l ≠ .sequence) : ∃ t rest, ts = t :: rest ∧ l.starts t = true := by
  induction h with
  | integer ht | float ht | string ht | arguments ht | argument ht =>
    exact ⟨_, _, rfl, by simp only [Level.starts, startsPrimary, ht]⟩
  | literal ht hv => exact ⟨_, _, rfl, by simp [Level.starts, startsPrimary, ht, hv]⟩
  | name ht hv => exact ⟨_, _, rfl, by simp [Level.starts, startsPrimary, ht, hv]⟩
  | parens ht | list ht => exact ⟨_, _, rfl, by simp only [Level.starts, startsPrimary, ht]⟩
  | @tighter l k _ _ _ hk _ ih =>
    obtain ⟨t, rest, rfl, ht⟩ := ih (by cases l <;> cases hk <;> decide)
    exact ⟨t, rest, rfl, Level.starts_of_operand? hk ht⟩
  | member _ _ _ ih => exact ih (by decide)
  | item _ _ _ _ ih | call _ _ _ _ ih => exact ih (by decide)
  | negate ht => exact ⟨_, _, rfl, by simp [Level.starts, ht]⟩
  | combine _ _ _ _ ih => exact ih hl
  | compare _ _ _ ih =>
    obtain ⟨t, rest, rfl, ht⟩ := ih (by decide)
    exact ⟨t, rest, rfl, ht⟩
  | not ht => exact ⟨_, _, rfl, by simp [Level.starts, ht]⟩
  | last _ ih | more _ _ _ ih =>
    obtain ⟨t, rest, rfl, ht⟩ := ih (by decide)
    exact ⟨t, rest, rfl, ht⟩
  | nothing | some => exact absurd rfl hl

/-- A token that opens what may stand behind an expression. -/
def opensSuffix (t : Token) : Bool :=
  match t.kind with
  | .dot | .lbracket | .lparen => true
  | _ => false

/-- A token that may go on a phrase of a level. -/
def Level.continues (t : Token) : Level → Bool
  | .primary => false
  | .suffixed | .signed => opensSuffix t
  | .product => (multiplicative? t).isSome || opensSuffix t
  | .sum => (additive? t).isSome || ((multiplicative? t).isSome || opensSuffix t)
  | .comparison | .negation =>
    (comparison? t).isSome || ((additive? t).isSome || ((multiplicative? t).isSome || opensSuffix t))
  | .conjunction =>
    t.isWord "and" || ((comparison? t).isSome ||
      ((additive? t).isSome || ((multiplicative? t).isSome || opensSuffix t)))
  | .disjunction | .items | .sequence =>
    t.isWord "or" || (t.isWord "and" || ((comparison? t).isSome ||
      ((additive? t).isSome || ((multiplicative? t).isSome || opensSuffix t))))

/-- What comes next does not go on a phrase of a level. -/
def Follows (l : Level) (us : List Token) : Prop :=
  l.continues (us.head?.getD (.eof .start)) = false

theorem Follows.operand {l k : Level} {us : List Token} (h : Follows l us)
    (hk : l.operand? = some k) : Follows k us := by
  unfold Follows at *
  cases l <;> cases hk <;> simp only [Level.continues, Bool.or_eq_false_iff] at h ⊢ <;>
    simp only [h, and_self]

theorem follows_primary (us : List Token) : Follows .primary us := rfl

theorem Follows.sign?_eq_none {l k : Level} {us : List Token} (h : Follows l us)
    (hk : l.operand? = some k) : l.sign? (us.head?.getD (.eof .start)) = none := by
  unfold Follows at h
  cases l <;> cases hk <;>
    simp_all [Level.continues, Level.sign?, word?]

/-- A token that is no sign for a comparison or tighter does not go on a comparison. -/
theorem continues_comparison_of_kind {t : Token} {kind : TokenKind} (h : t.kind = kind)
    (hk : Level.continues ⟨kind, "", .start, .start⟩ .comparison = false) :
    Level.continues t .comparison = false := by
  subst h
  exact hk

theorem continues_disjunction_of_kind {t : Token} {kind : TokenKind} (h : t.kind = kind)
    (hi : (kind == .identifier) = false)
    (hk : Level.continues ⟨kind, "", .start, .start⟩ .comparison = false) :
    Level.continues t .disjunction = false := by
  have hword (w : String) : t.isWord w = false := by
    have hne : (t.kind == .identifier) = false := by simpa [h] using hi
    rw [Token.isWord, hne, Bool.false_and]
  have hc := continues_comparison_of_kind h hk
  simp only [Level.continues] at hc ⊢
  rw [hword, hword, hc]
  rfl

/-- A sign does not go on an operand of its own level. -/
theorem follows_of_sign? {l k : Level} {t : Token} {us : List Token} {f : Node → Node → Node}
    (h : l.sign? t = some f) (hk : l.operand? = some k) : Follows k (t :: us) := by
  show Level.continues t k = false
  cases l with
  | product =>
    cases hk
    obtain ⟨op, hop, -⟩ := Option.map_eq_some_iff.mp h
    unfold multiplicative? at hop
    split at hop <;> first
      | next hkind => simp only [Level.continues, opensSuffix, hkind]
      | cases hop
  | sum =>
    cases hk
    obtain ⟨op, hop, -⟩ := Option.map_eq_some_iff.mp h
    unfold additive? at hop
    split at hop <;> first
      | next hkind => simp [Level.continues, opensSuffix, multiplicative?, hkind]
      | cases hop
  | conjunction =>
    cases hk
    obtain ⟨_, hop, -⟩ := Option.map_eq_some_iff.mp h
    unfold word? at hop
    split at hop
    · next hw => exact continues_comparison_of_kind (kind_of_isWord hw) rfl
    · cases hop
  | disjunction =>
    cases hk
    obtain ⟨_, hop, -⟩ := Option.map_eq_some_iff.mp h
    unfold word? at hop
    split at hop
    · next hw =>
      have hc := continues_comparison_of_kind (kind_of_isWord hw) rfl
      have hand : t.isWord "and" = false := by
        simp only [Token.isWord, Bool.and_eq_true, beq_iff_eq] at hw
        simp [Token.isWord, hw.2]
      simp only [Level.continues] at hc ⊢
      rw [hand, hc]
      rfl
    · cases hop
  | _ => cases h

/-- A sign that compares does not go on a sum. -/
theorem follows_of_comparison? {t : Token} {us : List Token} {op : Comparison}
    (h : comparison? t = some op) : Follows .sum (t :: us) := by
  show Level.continues t .sum = false
  unfold comparison? at h
  split at h <;> first
    | next hkind => simp [Level.continues, opensSuffix, multiplicative?, additive?, hkind]
    | cases h

theorem follows_of_kind {t : Token} {us : List Token} {kind : TokenKind} (h : t.kind = kind)
    (hi : (kind == .identifier) = false)
    (hk : Level.continues ⟨kind, "", .start, .start⟩ .comparison = false) :
    Follows .disjunction (t :: us) := continues_disjunction_of_kind h hi hk

theorem Ends.follows {us : List Token} (h : Ends us) : Follows .disjunction us := by
  obtain ⟨t, ht, he⟩ := h
  cases us with
  | nil => cases ht
  | cons u us =>
    cases ht
    unfold endsStatement at he
    split at he
    all_goals first
      | next hkind => exact follows_of_kind hkind rfl rfl
      | cases he

/-! ## Outcomes -/

/-- The complaint that expressions nest too deeply. -/
def IsTooDeep (e : SyntaxError) : Prop := ∃ limit, e.message = (Problem.tooDeep limit).message

/-- Reading stopped since an expression nests too deeply. -/
def StopsDeep (deep : Prop) (reported : List SyntaxError) (r : EStateM.Result Stop Cursor α) : Prop :=
  ∃ x d, r = .error (.malformed x) d ∧ deep ∧ IsTooDeep x ∧ d.reported = reported

/-- Reading came to what is expected, in front of `us`, or stopped since an
expression nests too deeply. -/
def Gives (deep : Prop) (reported : List SyntaxError) (expected : α → Prop) (us : List Token)
    (r : EStateM.Result Stop Cursor α) : Prop :=
  (∃ a d, r = .ok a d ∧ expected a ∧ d.rest = us ∧ d.reported = reported) ∨
    StopsDeep deep reported r

variable {deep deep' : Prop} {reported : List SyntaxError} {us vs : List Token}

theorem StopsDeep.mono {r : EStateM.Result Stop Cursor α} (h : StopsDeep deep reported r)
    (hd : deep → deep') : StopsDeep deep' reported r := by
  obtain ⟨x, d, rfl, hdeep, hx⟩ := h
  exact ⟨x, d, rfl, hd hdeep, hx⟩

theorem StopsDeep.bind {r : Reader α} {f : α → Reader β} {c : Cursor}
    (h : StopsDeep deep reported (r c)) : StopsDeep deep reported ((r >>= f) c) := by
  obtain ⟨x, d, hr, hx⟩ := h
  exact ⟨x, d, bind_of_error hr, hx⟩

theorem Gives.mono {expected : α → Prop} {r : EStateM.Result Stop Cursor α}
    (h : Gives deep reported expected us r) (deep' : Prop) (hd : deep → deep') :
    Gives deep' reported expected us r :=
  h.imp id (·.mono hd)

/-- What is read after something else. -/
theorem Gives.bind {r : Reader α} {f : α → Reader β} {c : Cursor} {expected : α → Prop}
    {expected' : β → Prop} (h : Gives deep reported expected us (r c))
    (hf : ∀ a d, expected a → d.rest = us → d.reported = reported →
      Gives deep reported expected' vs (f a d)) :
    Gives deep reported expected' vs ((r >>= f) c) := by
  obtain ⟨a, d, hr, ha, hd, hrep⟩ | h := h
  · rw [bind_of_ok hr]
    exact hf a d ha hd hrep
  · exact .inr h.bind

theorem Gives.pure {a : α} {d : Cursor} {expected : α → Prop} (ha : expected a)
    (hd : d.rest = us) (hrep : d.reported = reported) :
    Gives deep reported expected us ((pure a : Reader α) d) :=
  .inl ⟨a, d, rfl, ha, hd, hrep⟩

/-- Reading came to a point where a loop that combines expressions goes on with
one that stands for `e`, in front of `us`. -/
def ComesTo (deep : Prop) (reported : List SyntaxError) (loop : Nat → Node → Reader Node) (e : Node)
    (us : List Token) (r : EStateM.Result Stop Cursor Node) : Prop :=
  (∃ fuel a d, r = loop fuel a d ∧ us.length ≤ fuel ∧ a.erased = e ∧ d.rest = us ∧
    d.reported = reported) ∨ StopsDeep deep reported r

namespace ComesTo

variable {loop : Nat → Node → Reader Node} {e e' : Node} {r : EStateM.Result Stop Cursor Node}

/-- A loop goes on behind what was read in front of it. -/
theorem bind {reader : Reader α} {f : α → Reader Node} {c : Cursor} {expected : α → Prop}
    (h : Gives deep reported expected us (reader c))
    (hf : ∀ a d, expected a → d.rest = us → d.reported = reported →
      ComesTo deep reported loop e vs (f a d)) :
    ComesTo deep reported loop e vs ((reader >>= f) c) := by
  obtain ⟨a, d, hr, ha, hd, hrep⟩ | h := h
  · rw [bind_of_ok hr]
    exact hf a d ha hd hrep
  · exact .inr h.bind

/-- One more turn of a loop, for which the token ahead leaves fuel. -/
theorem turn {t : Token} (h : ComesTo deep reported loop e (t :: us) r)
    (hstep : ∀ fuel a d, us.length ≤ fuel → a.erased = e → d.rest = t :: us →
      d.reported = reported → ComesTo deep reported loop e' vs (loop (fuel + 1) a d)) :
    ComesTo deep reported loop e' vs r := by
  obtain ⟨fuel, a, d, rfl, hfuel, ha, hd, hrep⟩ | h := h
  · cases fuel with
    | zero => cases hfuel
    | succ fuel => exact hstep fuel a d (Nat.le_of_succ_le_succ hfuel) ha hd hrep
  · exact .inr h

/-- A loop that has nothing to go on with has read the level. -/
theorem gives (h : ComesTo deep reported loop e us r)
    (hend : ∀ fuel a d, d.rest = us → loop fuel a d = .ok a d) :
    Gives deep reported (·.erased = e) us r := by
  obtain ⟨fuel, a, d, rfl, -, ha, hd, hrep⟩ | h := h
  · exact .inl ⟨a, d, hend fuel a d hd, ha, hd, hrep⟩
  · exact .inr h

end ComesTo

/-! ## Expressions -/

variable (o : Options)

/-- How a level is read. What stands between brackets is not one expression. -/
def Level.reader (inner : Inner) : Level → Reader Node
  | .primary => readPrimary o inner
  | .suffixed => readPostfix o inner
  | .signed => readSign o inner
  | .product => readProduct o inner
  | .sum => readSum o inner
  | .comparison => readComparison o inner
  | .negation => readNegation o inner
  | .conjunction => readAnd o inner
  | .disjunction => readOr o inner
  | .items | .sequence => fail .statementOver

/-- How a level that is combined from the left goes on, behind a part of it. -/
def Level.loop (inner : Inner) (start : Token) : Level → Nat → Node → Reader Node
  | .suffixed => readSuffixes o inner start
  | .product => chainFrom o start multiplicative? (readSign o inner) .arithmetic
  | .sum => chainFrom o start additive? (readProduct o inner) .arithmetic
  | .conjunction =>
    chainFrom o start (word? "and") (readNegation o inner) fun span _ => .logic span .and
  | .disjunction => chainFrom o start (word? "or") (readAnd o inner) fun span _ => .logic span .or
  | _ => fun _ _ => fail .statementOver

/-- Wherever a level stands, it is read, unless what follows goes on it. -/
def Reads (l : Level) (ts : List Token) (e : Node) (us : List Token) : Prop :=
  ∀ n c, c.rest = ts → Follows l us →
    Gives (n < ts.length) c.reported (·.erased = e) us (l.reader o (readLevel o n) c)

/-- Wherever a level stands that is combined from the left, its loop comes behind
it, unless what follows goes on an operand. -/
def Loops (l k : Level) (ts : List Token) (e : Node) (us : List Token) : Prop :=
  ∀ n c, c.rest = ts → Follows k us →
    ComesTo (n < ts.length) c.reported (l.loop o (readLevel o n) c.current) e us
      (l.reader o (readLevel o n) c)

/-- Items are read, with the sign that closes them. -/
def ReadsItems (r : Inner → Closing → Reader (List Node)) (ts : List Token) (e : Node)
    (us : List Token) : Prop :=
  ∀ n c (closing : Closing) t vs, c.rest = ts → us = t :: vs → t.kind = closing.kind →
    Gives (n ≤ ts.length) c.reported (fun items => .list nowhere (erasedNodes items) = e) vs
      (r (readLevel o n) closing c)

/-- What is to be shown of a derivation, level by level. -/
def Complete : Level → List Token → Node → List Token → Prop
  | .suffixed => Loops o .suffixed .primary
  | .product => Loops o .product .signed
  | .sum => Loops o .sum .product
  | .conjunction => Loops o .conjunction .negation
  | .disjunction => Loops o .disjunction .conjunction
  | .items => fun ts e us => ∀ fuel, ts.length ≤ fuel →
      ReadsItems o (fun inner closing => readItems inner closing fuel) ts e us
  | .sequence => ReadsItems o readSequence
  | l => Reads o l

variable {o}

section Chain

variable {l k : Level} {sign? : Token → Option α} {combine : Span → α → Node → Node → Node}
  {meaning : α → Node → Node → Node} (C : Chains l k sign? combine meaning) {operand : Reader Node}
  {start : Token} {c d : Cursor}

include C

/-- A chain ends where no sign follows. -/
theorem chainFrom_run_end (hf : Follows l us) (hd : d.rest = us) (fuel : Nat) (a : Node) :
    chainFrom o start sign? operand combine fuel a d = .ok a d := by
  cases fuel with
  | zero => rfl
  | succ fuel =>
    have hsign : sign? d.current = none := by
      have h := hf.sign?_eq_none C.operand
      rw [C.sign, Option.map_eq_none_iff, ← hd] at h
      exact h
    rw [chainFrom, bind_of_ok (current_run d), hsign]
    rfl

omit C in
/-- The first operand of a chain. -/
theorem comesTo_operand {e : Node} (h : Gives deep c.reported (·.erased = e) us (operand c)) :
    ComesTo deep c.reported (chainFrom o c.current sign? operand combine) e us
      (chain o sign? operand combine c) := by
  rw [chain, bind_of_ok (current_run c)]
  exact .bind h fun a d ha hd hrep =>
    .inl ⟨d.rest.length, a, d, rfl, Nat.le_of_eq (congrArg _ hd.symm), ha, hd, hrep⟩

/-- A sign and one more operand. -/
theorem comesTo_combine {t : Token} {f : Node → Node → Node} {left right : Node}
    {r : EStateM.Result Stop Cursor Node} (hf : l.sign? t = some f)
    (h : ComesTo deep reported (chainFrom o start sign? operand combine) left (t :: us) r)
    (ho : ∀ d, d.rest = us → Gives deep d.reported (·.erased = right) vs (operand d)) 
    (hlen : vs.length ≤ us.length) :
    ComesTo deep reported (chainFrom o start sign? operand combine) (f left right) vs r := by
  have hne : t.kind ≠ .eof := (IsInner.of_sign? hf).isBefore.ne_eof
  rw [C.sign, Option.map_eq_some_iff] at hf
  obtain ⟨sign, hsign, rfl⟩ := hf
  refine h.turn fun fuel a d hfuel ha hd hrep => ?_
  rw [chainFrom, bind_of_ok (current_run d), Cursor.current_of_rest hd, hsign]
  dsimp only
  rw [bind_of_ok (advance_run hd hne), ← hrep]
  refine .bind (ho (d.behind t us) rfl) fun b d' hb hd' hrep' => ?_
  rw [bind_of_ok (spanFrom_run o start d')]
  exact .inl ⟨fuel, _, d', rfl, Nat.le_trans hlen hfuel, by rw [C.combine, ha, hb], hd', hrep'⟩

end Chain

theorem readSuffixes_run_end {inner : Inner} {start : Token} {d : Cursor} (hf : Follows .suffixed us)
    (hd : d.rest = us) (fuel : Nat) (a : Node) : readSuffixes o inner start fuel a d = .ok a d := by
  cases fuel with
  | zero => rfl
  | succ fuel =>
    have h : opensSuffix d.current = false := by rw [Cursor.current, hd]; exact hf
    rw [readSuffixes, bind_of_ok (current_run d)]
    rw [opensSuffix] at h
    cases hk : d.current.kind <;> simp only [hk] at h <;> first
      | rfl
      | cases h

/-! ### Where the readers of the next level are entered -/

/-- What lies one level deeper is read if there is one more level. -/
theorem gives_inner {ts : List Token} {e : Node} (entry : Entry)
    (h : Reads o entry.level ts e us) {n : Nat} {c : Cursor} (hc : c.rest = ts)
    (hf : Follows entry.level us) :
    Gives (n ≤ ts.length) c.reported (·.erased = e) us (readLevel o n entry c) := by
  cases n with
  | zero => exact .inr ⟨_, c, fail_run _ c, Nat.zero_le _, ⟨o.depthLimit, rfl⟩, rfl⟩
  | succ n =>
    cases entry <;> exact (h n c hc hf).mono _ fun hn => hn

variable {ts : List Token} {e : Node}

/-- An expression in front of a sign that closes it. -/
theorem gives_enclosed {t u : Token} {kind : TokenKind} (h : Reads o .disjunction ts e (u :: us))
    (hu : u.kind = kind) (hi : (kind == .identifier) = false)
    (hk : Level.continues ⟨kind, "", .start, .start⟩ .comparison = false) (n : Nat) (c : Cursor) :
    Gives (n < (t :: ts).length) c.reported (·.erased = e) (u :: us)
      (readLevel o n .expression (c.behind t ts)) :=
  (gives_inner .expression h rfl (follows_of_kind hu hi hk)).mono _ Nat.lt_succ_of_le

theorem closing_ne_eof (closing : Closing) : closing.kind ≠ .eof := by
  cases closing <;> decide

/-! ### Primary expressions -/

/-- One token, of which a node is made. -/
theorem reads_token {t : Token} (make : Span → Node) (hne : t.kind ≠ .eof)
    (hmake : ∀ span, (make span).erased = e)
    (h : ∀ inner c, c.rest = t :: us → readPrimary o inner c =
      (do let _ ← advance; return make (← spanFrom o t) : Reader Node) c) :
    Reads o .primary (t :: us) e us := by
  intro n c hc _
  show Gives _ _ _ _ (readPrimary o _ c)
  rw [h _ c hc, bind_of_ok (advance_run hc hne), bind_of_ok (spanFrom_run o t _)]
  exact .pure (hmake _) rfl rfl

theorem reads_number {t : Token} {n : Nat} (ht : t.kind = .integer)
    (hn : natural t.value.toList = .ok n) :
    Reads o .primary (t :: us) (.const nowhere (.int 0 n)) us := by
  refine reads_token (fun span => .const span (.int 0 n)) (by rw [ht]; decide) (fun _ => rfl)
    fun inner c hc => ?_
  rw [readPrimary, bind_of_ok (current_run c), Cursor.current_of_rest hc]
  simp only [ht, numberOf, hn, pure_bind]

theorem reads_float {t : Token} (ht : t.kind = .float) :
    Reads o .primary (t :: us) (.const nowhere (.float 0 (decimal t.value.toList))) us := by
  refine reads_token (fun span => .const span (.float 0 (decimal t.value.toList)))
    (by rw [ht]; decide) (fun _ => rfl) fun inner c hc => ?_
  rw [readPrimary, bind_of_ok (current_run c), Cursor.current_of_rest hc]
  simp only [ht]

theorem reads_string {t : Token} (ht : t.kind = .string) :
    Reads o .primary (t :: us) (.const nowhere (.text 0 t.value)) us := by
  refine reads_token (fun span => .const span (.text 0 t.value)) (by rw [ht]; decide)
    (fun _ => rfl) fun inner c hc => ?_
  rw [readPrimary, bind_of_ok (current_run c), Cursor.current_of_rest hc]
  simp only [ht]

theorem reads_arguments {t : Token} (ht : t.kind = .argument) (hv : t.value = "") :
    Reads o .primary (t :: us) (.name nowhere argumentsName) us := by
  refine reads_token (.name · argumentsName) (by rw [ht]; decide) (fun _ => rfl) fun inner c hc => ?_
  rw [readPrimary, bind_of_ok (current_run c), Cursor.current_of_rest hc]
  simp only [ht, readArgument, if_pos hv]

theorem reads_argument {t : Token} {n : Nat} (ht : t.kind = .argument) (hv : t.value ≠ "")
    (hn : natural t.value.toList = .ok n) : Reads o .primary (t :: us) (.argument nowhere n) us := by
  refine reads_token (.argument · n) (by rw [ht]; decide) (fun _ => rfl) fun inner c hc => ?_
  rw [readPrimary, bind_of_ok (current_run c), Cursor.current_of_rest hc]
  simp only [ht, readArgument, if_neg hv, numberOf, hn, pure_bind]

theorem reads_literal {t : Token} {v : Value} (ht : t.kind = .identifier)
    (hv : literal? t.value = some v) : Reads o .primary (t :: us) (.const nowhere v) us := by
  refine reads_token (.const · v) (by rw [ht]; decide) (fun _ => rfl) fun inner c hc => ?_
  rw [readPrimary, bind_of_ok (current_run c), Cursor.current_of_rest hc]
  simp only [ht, readWord, hv]

/-- The words that are values are reserved. -/
theorem literal?_eq_none {word : String} (h : word ∉ reservedWords) : literal? word = none := by
  have hne (w : String) (hw : w ∈ reservedWords) : word ≠ w := fun e => h (e ▸ hw)
  rw [literal?, if_neg (hne _ (by decide)), if_neg (hne _ (by decide)), if_neg (hne _ (by decide))]

theorem reads_name {t : Token} (ht : t.kind = .identifier) (hv : t.value ∉ reservedWords) :
    Reads o .primary (t :: us) (.name nowhere t.value) us := by
  refine reads_token (.name · t.value) (by rw [ht]; decide) (fun _ => rfl) fun inner c hc => ?_
  rw [readPrimary, bind_of_ok (current_run c), Cursor.current_of_rest hc]
  simp only [ht, readWord, literal?_eq_none hv, if_neg hv]

theorem reads_parens {t u : Token} (ht : t.kind = .lparen) (h : Reads o .disjunction ts e (u :: us))
    (hu : u.kind = .rparen) : Reads o .primary (t :: ts) e us := by
  intro n c hc _
  have hne : t.kind ≠ .eof := by rw [ht]; decide
  show Gives _ _ _ _ (readPrimary o _ c)
  rw [readPrimary, bind_of_ok (current_run c), Cursor.current_of_rest hc]
  simp only [ht]
  rw [bind_of_ok (advance_run hc hne)]
  refine (gives_enclosed h hu rfl rfl n c).bind fun a d ha hd hrep => ?_
  rw [bind_of_ok (expect_run hd hu (by decide) _)]
  exact .pure ha rfl hrep

theorem reads_list {t u : Token} (ht : t.kind = .lbracket)
    (h : ReadsItems o readSequence ts e (u :: us)) (hu : u.kind = .rbracket) :
    Reads o .primary (t :: ts) e us := by
  intro n c hc _
  have hne : t.kind ≠ .eof := by rw [ht]; decide
  show Gives _ _ _ _ (readPrimary o _ c)
  rw [readPrimary, bind_of_ok (current_run c), Cursor.current_of_rest hc]
  simp only [ht]
  rw [bind_of_ok (advance_run hc hne)]
  have hseq := (h n (c.behind t ts) .bracket u us rfl rfl hu).mono (n < (t :: ts).length)
    Nat.lt_succ_of_le
  refine hseq.bind fun items d ha hd hrep => ?_
  rw [bind_of_ok (spanFrom_run o t d)]
  exact .pure (by rw [Node.erased]; exact ha) hd hrep

/-! ### Suffixes -/

section Suffixes

variable {n : Nat} {start : Token} {r : EStateM.Result Stop Cursor Node}

theorem comesTo_member {t u : Token} (ht : t.kind = .dot) (hu : u.kind = .identifier)
    (h : ComesTo deep reported (readSuffixes o (readLevel o n) start) e (t :: u :: us) r) :
    ComesTo deep reported (readSuffixes o (readLevel o n) start) (.member nowhere e u.value) us r := by
  have hne : t.kind ≠ .eof := by rw [ht]; decide
  refine h.turn fun fuel a d hfuel ha hd hrep => ?_
  rw [readSuffixes, bind_of_ok (current_run d), Cursor.current_of_rest hd]
  simp only [ht]
  rw [bind_of_ok (advance_run hd hne), bind_of_ok (expect_run rfl hu (by decide) _),
    bind_of_ok (spanFrom_run o start _)]
  exact .inl ⟨fuel, _, _, rfl, Nat.le_of_succ_le hfuel, by rw [Node.erased, ha], rfl, hrep⟩

theorem comesTo_item {t u : Token} {key : Node} (ht : t.kind = .lbracket)
    (h : ComesTo deep reported (readSuffixes o (readLevel o n) start) e (t :: us) r)
    (hkey : Reads o .disjunction us key (u :: vs)) (hu : u.kind = .rbracket)
    (hlen : vs.length ≤ us.length) (hdeep : n < (t :: us).length → deep) :
    ComesTo deep reported (readSuffixes o (readLevel o n) start) (.item nowhere e key) vs r := by
  have hne : t.kind ≠ .eof := by rw [ht]; decide
  refine h.turn fun fuel a d hfuel ha hd hrep => ?_
  rw [readSuffixes, bind_of_ok (current_run d), Cursor.current_of_rest hd]
  simp only [ht]
  rw [bind_of_ok (advance_run hd hne), ← hrep]
  refine .bind ((gives_enclosed hkey hu rfl rfl n d).mono _ hdeep) fun b d' hb hd' hrep' => ?_
  rw [bind_of_ok (expect_run hd' hu (by decide) _), bind_of_ok (spanFrom_run o start _)]
  exact .inl ⟨fuel, _, _, rfl, Nat.le_trans hlen hfuel, by rw [Node.erased, ha, hb], rfl, hrep'⟩

theorem comesTo_call {t u : Token} {arguments : List Node} (ht : t.kind = .lparen)
    (h : ComesTo deep reported (readSuffixes o (readLevel o n) start) e (t :: us) r)
    (hargs : ReadsItems o readSequence us (.list nowhere arguments) (u :: vs))
    (hu : u.kind = .rparen) (hlen : vs.length ≤ us.length) (hdeep : n < (t :: us).length → deep) :
    ComesTo deep reported (readSuffixes o (readLevel o n) start) (.call nowhere e arguments) vs r := by
  have hne : t.kind ≠ .eof := by rw [ht]; decide
  refine h.turn fun fuel a d hfuel ha hd hrep => ?_
  rw [readSuffixes, bind_of_ok (current_run d), Cursor.current_of_rest hd]
  simp only [ht]
  rw [bind_of_ok (advance_run hd hne), ← hrep]
  have hitems := (hargs n (d.behind t us) .paren u vs rfl rfl hu).mono deep
    fun hn => hdeep (Nat.lt_succ_of_le hn)
  refine .bind hitems fun items d' hb hd' hrep' => ?_
  obtain ⟨-, hitems⟩ := Node.list.inj hb
  rw [bind_of_ok (spanFrom_run o start _)]
  exact .inl ⟨fuel, _, _, rfl, Nat.le_trans hlen hfuel, by rw [Node.erased, ha, hitems], hd', hrep'⟩

end Suffixes

/-! ### Items -/

theorem follows_closing (closing : Closing) {t : Token} (ht : t.kind = closing.kind) :
    Follows .disjunction (t :: us) := by
  cases closing <;> exact follows_of_kind ht rfl rfl

theorem readsItems_last (h : Reads o .disjunction ts e us) (hlen : us.length < ts.length)
    {fuel : Nat} (hf : ts.length ≤ fuel) :
    ReadsItems o (fun inner closing => readItems inner closing fuel) ts (.list nowhere [e]) us := by
  intro n c closing t vs hc hus ht
  subst hus
  cases fuel with
  | zero => omega
  | succ fuel =>
    dsimp only
    rw [readItems]
    refine (gives_inner .expression h hc (follows_closing closing ht)).bind fun a d ha hd hrep => ?_
    have hnot : (t.kind == .comma) = false := by rw [ht]; cases closing <;> rfl
    rw [bind_of_ok (current_run d), Cursor.current_of_rest hd, hnot,
      if_neg Bool.false_ne_true, bind_of_ok (expect_run hd ht (closing_ne_eof closing) _)]
    exact .pure (by rw [erasedNodes, ha]; rfl) rfl hrep

theorem readsItems_more {t : Token} {items : List Node} (h : Reads o .disjunction ts e (t :: us))
    (ht : t.kind = .comma) (hlen : us.length < ts.length) {fuel : Nat}
    (hi : ReadsItems o (fun inner closing => readItems inner closing fuel) us (.list nowhere items) vs) :
    ReadsItems o (fun inner closing => readItems inner closing (fuel + 1)) ts
      (.list nowhere (e :: items)) vs := by
  intro n c closing u ws hc hvs hu
  dsimp only
  rw [readItems]
  refine (gives_inner .expression h hc (follows_of_kind ht rfl rfl)).bind fun a d ha hd hrep => ?_
  have hne : t.kind ≠ .eof := by rw [ht]; decide
  have hcomma : (t.kind == .comma) = true := by rw [ht]; rfl
  rw [bind_of_ok (current_run d), Cursor.current_of_rest hd, if_pos hcomma,
    bind_of_ok (advance_run hd hne)]
  have hrest := (hi n (d.behind t us) closing u ws rfl hvs hu).mono (n ≤ ts.length)
    fun hn => by omega
  rw [← hrep]
  refine hrest.bind fun rest d' hrest' hd' hrep' => ?_
  obtain ⟨-, hitems⟩ := Node.list.inj hrest'
  exact .pure (by rw [erasedNodes, ha, hitems]) hd' hrep'

theorem readsSequence_nothing : ReadsItems o readSequence us (.list nowhere []) us := by
  intro n c closing t vs hc hus ht
  subst hus
  have hclosing : (t.kind == closing.kind) = true := by rw [ht]; exact beq_self_eq_true _
  rw [readSequence, bind_of_ok (current_run c), Cursor.current_of_rest hc, if_pos hclosing,
    bind_of_ok (advance_run hc (ht ▸ closing_ne_eof closing))]
  exact .pure rfl rfl rfl

theorem readsSequence_some (h : ∀ fuel, ts.length ≤ fuel →
      ReadsItems o (fun inner closing => readItems inner closing fuel) ts e us)
    (hs : ∃ t rest, ts = t :: rest ∧ Level.items.starts t = true) :
    ReadsItems o readSequence ts e us := by
  intro n c closing u vs hc hus hu
  obtain ⟨t, rest, rfl, ht⟩ := hs
  have hnot : (t.kind == closing.kind) = false := by
    cases hk : t.kind == closing.kind with
    | false => rfl
    | true =>
      have hkind : t.kind = closing.kind := by simpa using hk
      cases closing <;> simp [Level.starts, startsPrimary, Token.isWord, hkind, Closing.kind] at ht
  rw [readSequence, bind_of_ok (current_run c), Cursor.current_of_rest hc, hnot,
    if_neg Bool.false_ne_true, bind_of_ok (get_run c)]
  exact h _ (Nat.le_of_eq (congrArg List.length hc.symm)) n c closing u vs hc hus hu

/-! ### Signs in front, and comparisons -/

theorem reads_signed (h : Reads o .suffixed ts e us)
    (hs : ∃ t rest, ts = t :: rest ∧ Level.suffixed.starts t = true) : Reads o .signed ts e us := by
  intro n c hc hf
  obtain ⟨t, rest, rfl, ht⟩ := hs
  have hnot : (t.kind == .minus) = false := by
    cases hk : t.kind == .minus with
    | false => rfl
    | true =>
      have hkind : t.kind = .minus := by simpa using hk
      simp [Level.starts, startsPrimary, hkind] at ht
  show Gives _ _ _ _ (readSign o _ c)
  rw [readSign, bind_of_ok (current_run c), Cursor.current_of_rest hc, hnot,
    if_neg Bool.false_ne_true]
  exact h n c hc hf

theorem reads_negate {t : Token} (ht : t.kind = .minus) (h : Reads o .signed ts e us) :
    Reads o .signed (t :: ts) (.unary nowhere .negate e) us := by
  intro n c hc hf
  have hne : t.kind ≠ .eof := by rw [ht]; decide
  have hminus : (t.kind == .minus) = true := by rw [ht]; rfl
  show Gives _ _ _ _ (readSign o _ c)
  rw [readSign, bind_of_ok (current_run c), Cursor.current_of_rest hc, if_pos hminus,
    bind_of_ok (advance_run hc hne)]
  have hin := (gives_inner .sign h (c := c.behind t ts) rfl hf).mono (n < (t :: ts).length)
    Nat.lt_succ_of_le
  refine hin.bind fun a d ha hd hrep => ?_
  rw [bind_of_ok (spanFrom_run o t d)]
  exact .pure (by rw [Node.erased, ha]) hd hrep

theorem reads_comparison (h : Reads o .sum ts e us) : Reads o .comparison ts e us := by
  intro n c hc hf
  have hnone : comparison? (us.head?.getD (.eof .start)) = none := by
    simp only [Follows, Level.continues, Bool.or_eq_false_iff, Option.isSome_eq_false_iff,
      Option.isNone_iff_eq_none] at hf
    exact hf.1
  show Gives _ _ _ _ (readComparison o _ c)
  rw [readComparison, bind_of_ok (current_run c)]
  refine Gives.bind (h n c hc (hf.operand rfl)) fun a d ha hd hrep => ?_
  have hcur : comparison? d.current = none := by rw [Cursor.current, hd]; exact hnone
  rw [bind_of_ok (current_run d), hcur]
  exact .pure ha hd hrep

theorem reads_compare {t : Token} {op : Comparison} {left right : Node}
    (hl : Reads o .sum ts left (t :: us)) (ht : comparison? t = some op)
    (hr : Reads o .sum us right vs) (hlen : us.length < ts.length) :
    Reads o .comparison ts (.compare nowhere op left right) vs := by
  intro n c hc hf
  have hne : t.kind ≠ .eof := (IsInner.of_comparison? ht).isBefore.ne_eof
  show Gives _ _ _ _ (readComparison o _ c)
  rw [readComparison, bind_of_ok (current_run c)]
  refine Gives.bind (hl n c hc (follows_of_comparison? ht)) fun a d ha hd hrep => ?_
  rw [bind_of_ok (current_run d), Cursor.current_of_rest hd, ht]
  dsimp only
  rw [bind_of_ok (advance_run hd hne)]
  have hright := (hr n (d.behind t us) rfl (hf.operand rfl)).mono (n < ts.length)
    fun hn => by omega
  rw [← hrep]
  refine Gives.bind hright fun b d' hb hd' hrep' => ?_
  rw [bind_of_ok (spanFrom_run o _ d')]
  exact .pure (by rw [Node.erased, ha, hb]) hd' hrep'

theorem reads_negation (h : Reads o .comparison ts e us)
    (hs : ∃ t rest, ts = t :: rest ∧ Level.comparison.starts t = true) :
    Reads o .negation ts e us := by
  intro n c hc hf
  obtain ⟨t, rest, rfl, ht⟩ := hs
  have hnot : t.isWord "not" = false := by
    cases hw : t.isWord "not" with
    | false => rfl
    | true =>
      rw [Token.isWord, Bool.and_eq_true, beq_iff_eq, beq_iff_eq] at hw
      have hreserved : startsPrimary t = false := by
        simp only [startsPrimary, hw.1, hw.2]
        decide
      simp [Level.starts, hreserved, hw.1] at ht
  show Gives _ _ _ _ (readNegation o _ c)
  rw [readNegation, bind_of_ok (current_run c), Cursor.current_of_rest hc, hnot,
    if_neg Bool.false_ne_true]
  exact h n c hc hf

theorem reads_not {t : Token} (ht : t.isWord "not" = true) (h : Reads o .negation ts e us) :
    Reads o .negation (t :: ts) (.unary nowhere .not e) us := by
  intro n c hc hf
  have hne : t.kind ≠ .eof := by rw [kind_of_isWord ht]; decide
  show Gives _ _ _ _ (readNegation o _ c)
  rw [readNegation, bind_of_ok (current_run c), Cursor.current_of_rest hc, if_pos ht,
    bind_of_ok (advance_run hc hne)]
  have hin := (gives_inner .negation h (c := c.behind t ts) rfl hf).mono
    (n < (t :: ts).length) Nat.lt_succ_of_le
  refine hin.bind fun a d ha hd hrep => ?_
  rw [bind_of_ok (spanFrom_run o t d)]
  exact .pure (by rw [Node.erased, ha]) hd hrep

/-! ### All levels -/

theorem Loops.reads {l k : Level} (h : Loops o l k ts e us) (hk : l.operand? = some k)
    (hend : ∀ inner start fuel a d, Follows l us → d.rest = us →
      l.loop o inner start fuel a d = .ok a d) : Reads o l ts e us :=
  fun n c hc hf => (h n c hc (hf.operand hk)).gives fun fuel a d hd => hend _ _ fuel a d hf hd

theorem Complete.reads {l : Level} (h : Complete o l ts e us) (hi : l ≠ .items)
    (hs : l ≠ .sequence) : Reads o l ts e us := by
  cases l with
  | items => exact absurd rfl hi
  | sequence => exact absurd rfl hs
  | suffixed => exact Loops.reads h rfl fun _ _ fuel a d hf hd => readSuffixes_run_end hf hd fuel a
  | product =>
    exact Loops.reads h rfl fun _ _ fuel a d hf hd => chainFrom_run_end chains_product hf hd fuel a
  | sum => exact Loops.reads h rfl fun _ _ fuel a d hf hd => chainFrom_run_end chains_sum hf hd fuel a
  | conjunction =>
    exact Loops.reads h rfl fun _ _ fuel a d hf hd => chainFrom_run_end chains_conjunction hf hd fuel a
  | disjunction =>
    exact Loops.reads h rfl fun _ _ fuel a d hf hd => chainFrom_run_end chains_disjunction hf hd fuel a
  | primary | signed | comparison | negation => exact h

theorem complete_tighter {l k : Level} (hk : l.operand? = some k) (hd : Derives k ts e us)
    (h : Complete o k ts e us) : Complete o l ts e us := by
  have hr : Reads o k ts e us := h.reads (by cases l <;> cases hk <;> decide)
    (by cases l <;> cases hk <;> decide)
  have hs : ∃ t rest, ts = t :: rest ∧ k.starts t = true :=
    hd.starts (by cases l <;> cases hk <;> decide)
  cases l with
  | primary | items | sequence => cases hk
  | suffixed =>
    cases hk
    intro n c hc _
    show ComesTo _ _ _ _ _ (readPostfix o _ c)
    rw [readPostfix, bind_of_ok (current_run c)]
    exact .bind (hr n c hc (follows_primary us)) fun a d ha hrest hrep =>
      .inl ⟨d.rest.length, a, d, rfl, Nat.le_of_eq (congrArg _ hrest.symm), ha, hrest, hrep⟩
  | signed =>
    cases hk
    exact reads_signed hr hs
  | comparison =>
    cases hk
    exact reads_comparison hr
  | negation =>
    cases hk
    exact reads_negation hr hs
  | product | sum | conjunction | disjunction =>
    cases hk
    exact fun n c hc hf => comesTo_operand (hr n c hc hf)

theorem complete_combine {l k : Level} {t : Token} {f : Node → Node → Node} {left right : Node}
    (hk : l.operand? = some k) (hl : Complete o l ts left (t :: us)) (hf : l.sign? t = some f)
    (hr : Complete o k us right vs) (hts : us.length < ts.length) (hus : vs.length ≤ us.length) :
    Complete o l ts (f left right) vs := by
  have hright : Reads o k us right vs := hr.reads (by cases l <;> cases hk <;> decide)
    (by cases l <;> cases hk <;> decide)
  have hoperand (n : Nat) (hfollows : Follows k vs) (d : Cursor) (hd : d.rest = us) :=
    (hright n d hd hfollows).mono (n < ts.length) fun hn => by omega
  cases l with
  | product =>
    cases hk
    exact fun n c hc hfollows => comesTo_combine chains_product hf
      (hl n c hc (follows_of_sign? hf rfl)) (hoperand n hfollows) hus
  | sum =>
    cases hk
    exact fun n c hc hfollows => comesTo_combine chains_sum hf
      (hl n c hc (follows_of_sign? hf rfl)) (hoperand n hfollows) hus
  | conjunction =>
    cases hk
    exact fun n c hc hfollows => comesTo_combine chains_conjunction hf
      (hl n c hc (follows_of_sign? hf rfl)) (hoperand n hfollows) hus
  | disjunction =>
    cases hk
    exact fun n c hc hfollows => comesTo_combine chains_disjunction hf
      (hl n c hc (follows_of_sign? hf rfl)) (hoperand n hfollows) hus
  | _ => cases hf

/-- By induction on the derivation. -/
theorem Derives.complete {l : Level} (h : Derives l ts e us) : Complete o l ts e us := by
  induction h with
  | integer ht hn => exact reads_number ht hn
  | float ht => exact reads_float ht
  | string ht => exact reads_string ht
  | arguments ht hv => exact reads_arguments ht hv
  | argument ht hv hn => exact reads_argument ht hv hn
  | literal ht hv => exact reads_literal ht hv
  | name ht hv => exact reads_name ht hv
  | parens ht _ hu ih => exact reads_parens ht (ih.reads (by decide) (by decide)) hu
  | list ht _ hu ih => exact reads_list ht ih hu
  | tighter hk h ih => exact complete_tighter hk h ih
  | member h ht hu ih => exact fun n c hc _ => comesTo_member ht hu (ih n c hc rfl)
  | item h ht hkey hu ih ihk =>
    have hlen := hkey.consumes.length_le
    have hts := h.consumes.length_le
    rw [List.length_cons] at hlen
    exact fun n c hc _ => comesTo_item ht (ih n c hc rfl) (ihk.reads (by decide) (by decide)) hu
      (by omega) (by omega)
  | call h ht hargs hu ih iha =>
    have hlen := hargs.consumes.length_le
    have hts := h.consumes.length_le
    rw [List.length_cons] at hlen
    exact fun n c hc _ => comesTo_call ht (ih n c hc rfl) iha hu (by omega) (by omega)
  | negate ht _ ih => exact reads_negate ht ih
  | combine hk hl hf hr ihl ihr =>
    have hts := hl.consumes.length_le
    rw [List.length_cons] at hts
    exact complete_combine hk ihl hf ihr (by omega) hr.consumes.length_le
  | compare hl ht _ ihl ihr =>
    have hts := hl.consumes.length_le
    rw [List.length_cons] at hts
    exact reads_compare (ihl.reads (by decide) (by decide)) ht (ihr.reads (by decide) (by decide))
      (by omega)
  | not ht _ ih => exact reads_not ht ih
  | last h ih =>
    exact fun fuel hf =>
      readsItems_last (ih.reads (by decide) (by decide)) (h.length_lt (by decide)) hf
  | more h ht _ ih ihs =>
    intro fuel hf
    have hts := h.consumes.length_le
    rw [List.length_cons] at hts
    cases fuel with
    | zero => omega
    | succ fuel =>
      exact readsItems_more (ih.reads (by decide) (by decide)) ht (by omega)
        (ihs fuel (by omega))
  | nothing => exact readsSequence_nothing
  | some h ih => exact readsSequence_some ih (h.starts (by decide))

theorem gives_readExpression (h : Derives .disjunction ts e us) {c : Cursor} (hc : c.rest = ts)
    (hf : Follows .disjunction us) :
    Gives (o.depthLimit.toNat ≤ ts.length) c.reported (·.erased = e) us (readExpression o c) :=
  gives_inner .expression (h.complete.reads (by decide) (by decide)) hc hf

end Stencil.Grammar
