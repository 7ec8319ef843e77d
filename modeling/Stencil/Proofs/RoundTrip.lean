import Stencil.Proofs.Acceptance
import Stencil.Proofs.Layout
import Stencil.Template

/-!
# Parsing undoes printing

The atoms of an expression derive it at its level (`IsExpression.reads`), and those of
a statement derive the statement (`IsStatement.reads`), whatever stands behind them.
So the grammar derives a page from what it was printed as, and what the grammar
derives is accepted (`Template.parse_printed`).
-/

namespace Stencil

open Grammar

/-! ## Tokens and their atoms -/

theorem kind_of_atom {t : Token} {kind : TokenKind} {value : String} (h : t.atom = ⟨kind, value⟩) :
    t.kind = kind := (Atom.mk.inj h).1

theorem value_of_atom {t : Token} {kind : TokenKind} {value : String} (h : t.atom = ⟨kind, value⟩) :
    t.value = value := (Atom.mk.inj h).2

theorem isWord_of_atom {t : Token} {value : String} (h : t.atom = .word value) :
    t.isWord value = true := by
  rw [Token.isWord, kind_of_atom h, value_of_atom h, Bool.and_eq_true]
  exact ⟨rfl, beq_self_eq_true value⟩

theorem ends_of_atom {t : Token} (h : t.atom = .exit) (us : List Token) : Ends (t :: us) :=
  ⟨t, rfl, by rw [endsStatement, kind_of_atom h]⟩

theorem isSeparator_of_atom {t : Token} (h : t.atom = .exit ∨ t.atom = .enter) :
    isSeparator t = true := by
  obtain h | h := h <;> rw [isSeparator, kind_of_atom h]

theorem Arithmetic.operand?_level (op : Arithmetic) : op.level.operand? = some op.operand := by
  cases op <;> rfl

theorem Arithmetic.sign?_of_atom {t : Token} {op : Arithmetic} (h : t.atom = op.atom) :
    op.level.sign? t = some (.arithmetic nowhere op) := by
  cases op with
  | add | subtract => simp only [Arithmetic.level, Level.sign?, additive?, kind_of_atom h, Option.map]
  | multiply | divide | remainder =>
    simp only [Arithmetic.level, Level.sign?, multiplicative?, kind_of_atom h, Option.map]

theorem Connective.operand?_level (op : Connective) : op.level.operand? = some op.operand := by
  cases op <;> rfl

theorem Connective.sign?_of_atom {t : Token} {op : Connective} (h : t.atom = op.atom) :
    op.level.sign? t = some (.logic nowhere op) := by
  cases op <;> simp only [Connective.level, Level.sign?, word?, isWord_of_atom h, if_true, Option.map]

theorem comparison?_of_atom {t : Token} {op : Comparison} (h : t.atom = op.atom) :
    comparison? t = some op := by
  cases op <;> rw [comparison?, kind_of_atom h]

/-! ## Levels -/

namespace Grammar

theorem Level.rank_injective {l k : Level} (h : l.rank = k.rank) : l = k := by
  cases l <;> cases k <;> first | rfl | cases h

/-- Below every level of expressions but the tightest there is another one. -/
theorem Level.operand?_rank {k : Level} (hpos : 0 < k.rank) (hk : k.rank ≤ Level.disjunction.rank) :
    ∃ l, k.operand? = some l ∧ l.rank + 1 = k.rank := by
  cases k with
  | primary => exact absurd hpos (by decide)
  | items | sequence => exact absurd hk (by decide)
  | _ => exact ⟨_, rfl, rfl⟩

/-- An expression of one level is one of all looser levels. -/
theorem Derives.loosen {l k : Level} {ts us : List Token} {e : Node} (h : Derives l ts e us)
    (hlk : l.rank ≤ k.rank) (hk : k.rank ≤ Level.disjunction.rank) : Derives k ts e us := by
  induction hn : k.rank generalizing k with
  | zero =>
    obtain rfl := Level.rank_injective (show l.rank = k.rank by omega)
    exact h
  | succ n ih =>
    by_cases heq : l.rank = k.rank
    · obtain rfl := Level.rank_injective heq
      exact h
    · obtain ⟨m, hm, hrank⟩ := Level.operand?_rank (by omega) hk
      exact .tighter hm (ih (by omega) (by omega) (by omega))

/-- The atoms are read as an expression of the level, whatever stands behind them. -/
def Level.Reads (l : Level) (atoms : List Atom) (e : Node) : Prop :=
  ∀ ts us, ts.map Token.atom = atoms → Derives l (ts ++ us) e us

/-- The atoms are read as a part of a template, whatever stands behind them. -/
def Part.Reads (p : Part) (atoms : List Atom) (n : Node) : Prop :=
  ∀ ts us, ts.map Token.atom = atoms → Parses p (ts ++ us) n us

end Grammar

theorem Node.level_rank (e : Node) : e.level.rank ≤ Level.disjunction.rank := by
  cases e with
  | unary _ op | arithmetic _ op | logic _ op => cases op <;> exact Nat.le_of_ble_eq_true rfl
  | _ => exact Nat.le_of_ble_eq_true rfl

section Expressions

variable {atoms : List Atom} {e : Node} {l : Level}

theorem reads_disjunction (h : e.level.Reads atoms e.erased) :
    Level.disjunction.Reads atoms e.erased :=
  fun ts us hts => (h ts us hts).loosen e.level_rank (Nat.le_refl _)

/-- Parentheses make an operand as tight as its place takes it. -/
theorem reads_enclosed (hl : l.rank ≤ Level.disjunction.rank) (h : e.level.Reads atoms e.erased) :
    l.Reads (enclosed l e atoms) e.erased := by
  intro ts us hts
  unfold enclosed at hts
  split at hts
  · next hle => exact (h ts us hts).loosen hle hl
  · obtain ⟨t, ts, rfl, ht, hts⟩ := List.map_eq_cons_iff.mp hts
    obtain ⟨ts, more, rfl, hinner, hmore⟩ := List.map_eq_append_iff.mp hts
    obtain ⟨u, none, rfl, hu, hnone⟩ := List.map_eq_cons_iff.mp hmore
    obtain rfl := List.map_eq_nil_iff.mp hnone
    have hinner := reads_disjunction h ts (u :: us) hinner
    rw [List.cons_append, List.append_assoc]
    exact (Derives.parens (kind_of_atom ht) hinner (kind_of_atom hu)).loosen (Nat.zero_le _) hl

end Expressions

/-! ## Expressions -/

variable {spell : Float → String}

/-- Items with commas between them. -/
theorem reads_itemAtoms {items : List Node} (hne : items ≠ [])
    (h : ∀ e ∈ items, Level.disjunction.Reads (e.atoms spell) e.erased) :
    Level.items.Reads (itemAtoms spell items) (.list nowhere (erasedNodes items)) := by
  induction items with
  | nil => exact absurd rfl hne
  | cons e rest ih =>
    obtain ⟨he, hrest⟩ := List.forall_mem_cons.mp h
    intro ts us hts
    cases rest with
    | nil =>
      rw [itemAtoms] at hts
      exact .last (he ts us hts)
    | cons d rest =>
      rw [itemAtoms] at hts
      · obtain ⟨ts, more, rfl, hitem, hmore⟩ := List.map_eq_append_iff.mp hts
        obtain ⟨t, more, rfl, ht, hmore⟩ := List.map_eq_cons_iff.mp hmore
        rw [List.append_assoc]
        exact .more (he ts _ hitem) (kind_of_atom ht) (ih (by simp) hrest more us hmore)
      · simp

/-- Items between brackets, or nothing. -/
theorem reads_sequence {items : List Node}
    (h : ∀ e ∈ items, Level.disjunction.Reads (e.atoms spell) e.erased) :
    Level.sequence.Reads (itemAtoms spell items) (.list nowhere (erasedNodes items)) := by
  intro ts us hts
  cases items with
  | nil =>
    rw [itemAtoms] at hts
    obtain rfl := List.map_eq_nil_iff.mp hts
    exact .nothing
  | cons e rest => exact .some (reads_itemAtoms (List.cons_ne_nil e rest) h ts us hts)

/-- What is read between two signs. -/
theorem Grammar.Level.Reads.closed {l : Level} {atoms : List Atom} {a b : Atom} {e : Node}
    {ts : List Token} (h : l.Reads atoms e) (hts : ts.map Token.atom = a :: (atoms ++ [b])) :
    ∃ t ts' u, ts = t :: (ts' ++ [u]) ∧ t.atom = a ∧ u.atom = b ∧
      ∀ us, Derives l (ts' ++ u :: us) e (u :: us) := by
  obtain ⟨t, ts, rfl, ht, hts⟩ := List.map_eq_cons_iff.mp hts
  obtain ⟨ts, more, rfl, hinner, hmore⟩ := List.map_eq_append_iff.mp hts
  obtain ⟨u, none, rfl, hu, hnone⟩ := List.map_eq_cons_iff.mp hmore
  obtain rfl := List.map_eq_nil_iff.mp hnone
  exact ⟨t, ts, u, rfl, ht, hu, fun us => h ts (u :: us) hinner⟩

/-- One token is read. -/
theorem reads_single {l : Level} {a : Atom} {e : Node}
    (h : ∀ t us, t.atom = a → Derives l (t :: us) e us) : l.Reads [a] e := by
  intro ts us hts
  obtain ⟨t, none, rfl, ht, hnone⟩ := List.map_eq_cons_iff.mp hts
  obtain rfl := List.map_eq_nil_iff.mp hnone
  exact h t us ht

/-- Two operands with a sign between them. -/
theorem reads_between {l k m : Level} {as bs : List Atom} {a : Atom} {d e f : Node}
    (hd : k.Reads as d) (he : m.Reads bs e)
    (h : ∀ ts t us vs, t.atom = a → Derives k ts d (t :: us) → Derives m us e vs →
      Derives l ts f vs) : l.Reads (as ++ a :: bs) f := by
  intro ts us hts
  obtain ⟨ts, more, rfl, hleft, hmore⟩ := List.map_eq_append_iff.mp hts
  obtain ⟨t, more, rfl, ht, hright⟩ := List.map_eq_cons_iff.mp hmore
  rw [List.append_assoc]
  exact h _ t _ us ht (hd ts _ hleft) (he more us hright)

/-- An operand with something between two signs behind it. -/
theorem reads_behind {l k m : Level} {as bs : List Atom} {a b : Atom} {d e f : Node}
    (hd : k.Reads as d) (he : m.Reads bs e)
    (h : ∀ ts t us u vs, t.atom = a → u.atom = b → Derives k ts d (t :: us) →
      Derives m us e (u :: vs) → Derives l ts f vs) : l.Reads (as ++ a :: (bs ++ [b])) f := by
  intro ts us hts
  obtain ⟨ts, more, rfl, hleft, hmore⟩ := List.map_eq_append_iff.mp hts
  obtain ⟨t, more, u, rfl, ht, hu, hinner⟩ := he.closed hmore
  rw [List.append_assoc, List.cons_append, List.append_assoc]
  exact h _ t _ u us ht hu (hd ts _ hleft) (hinner us)

theorem reads_integer {n : Nat} (h : n < 10 ^ digitLimit) :
    Level.primary.Reads [⟨.integer, toString n⟩] (.const nowhere (.int 0 n)) := by
  refine reads_single fun t us ht => .integer (kind_of_atom ht) ?_
  rw [value_of_atom ht]
  exact natural_toString h

theorem reads_argument {n : Nat} (h : n < 10 ^ digitLimit) :
    Level.primary.Reads [⟨.argument, toString n⟩] (.argument nowhere n) := by
  refine reads_single fun t us ht => .argument (kind_of_atom ht) ?_ ?_
  · rw [value_of_atom ht, Nat.toString_eq_repr]
    exact Nat.repr_ne_empty
  · rw [value_of_atom ht]
    exact natural_toString h

theorem reads_literal {word : String} {v : Value} (h : literal? word = some v) :
    Level.primary.Reads [.word word] (.const nowhere v) := by
  refine reads_single fun t us ht => .literal (kind_of_atom ht) ?_
  rw [value_of_atom ht]
  exact h

theorem IsIdentifier.ne_argumentsName {name : String} (h : IsIdentifier name) :
    name ≠ argumentsName := by
  rintro rfl
  obtain ⟨c, cs, hname, hc, -⟩ := h
  cases hname
  exact absurd hc (by decide)

theorem IsReadable.toNat {n : Int} (h : IsReadable n) :
    ∃ k : Nat, n = k ∧ k < 10 ^ digitLimit := by
  obtain ⟨k, rfl⟩ := Int.eq_ofNat_of_zero_le h.1
  refine ⟨k, rfl, Int.ofNat_lt.mp ?_⟩
  rw [Int.natCast_pow]
  exact h.2

/-- What an expression was printed as is read as the expression. -/
theorem IsExpression.reads {e : Node} (h : IsExpression spell e) :
    e.level.Reads (e.atoms spell) e.erased := by
  have suffixed : Level.suffixed.rank ≤ Level.disjunction.rank := by decide
  induction h with
  | null => exact reads_literal rfl
  | bool _ b => cases b <;> exact reads_literal rfl
  | int _ hn =>
    obtain ⟨k, rfl, hk⟩ := hn.toNat
    exact reads_integer hk
  | @float _ x _ hx =>
    refine reads_single fun t us ht => ?_
    have hvalue : decimal t.value.toList = x := by rw [value_of_atom ht, hx]
    rw [Node.erased, ← hvalue]
    exact .float (kind_of_atom ht)
  | text _ s =>
    refine reads_single fun t us ht => ?_
    rw [Node.erased, ← value_of_atom ht]
    exact .string (kind_of_atom ht)
  | arguments => exact reads_single fun t us ht => .arguments (kind_of_atom ht) (value_of_atom ht)
  | argument _ hn =>
    obtain ⟨k, rfl, hk⟩ := hn.toNat
    exact reads_argument hk
  | @name _ name hname =>
    rw [Node.atoms, if_neg hname.1.ne_argumentsName]
    refine reads_single fun t us ht => ?_
    rw [Node.erased, ← value_of_atom ht]
    exact .name (kind_of_atom ht) (value_of_atom ht ▸ hname.2)
  | list _ _ ih =>
    have hitems := reads_sequence fun d hd => reads_disjunction (ih d hd)
    intro ts us hts
    rw [Node.atoms] at hts
    obtain ⟨t, ts, u, rfl, ht, hu, hinner⟩ := hitems.closed hts
    rw [List.cons_append, List.append_assoc, Node.erased]
    exact .list (kind_of_atom ht) (hinner us) (kind_of_atom hu)
  | member _ _ _ ih =>
    intro ts us hts
    rw [Node.atoms] at hts
    obtain ⟨ts, more, rfl, hobject, hmore⟩ := List.map_eq_append_iff.mp hts
    obtain ⟨t, more, rfl, ht, hmore⟩ := List.map_eq_cons_iff.mp hmore
    obtain ⟨u, none, rfl, hu, hnone⟩ := List.map_eq_cons_iff.mp hmore
    obtain rfl := List.map_eq_nil_iff.mp hnone
    rw [List.append_assoc, Node.erased, ← value_of_atom hu]
    exact .member (reads_enclosed suffixed ih ts _ hobject) (kind_of_atom ht) (kind_of_atom hu)
  | item _ _ _ ih ihk =>
    rw [Node.atoms, Node.erased]
    exact reads_behind (reads_enclosed suffixed ih) (reads_disjunction ihk)
      fun _ _ _ _ _ ht hu hd he => .item hd (kind_of_atom ht) he (kind_of_atom hu)
  | call _ _ _ ih iha =>
    rw [Node.atoms, Node.erased]
    exact reads_behind (reads_enclosed suffixed ih)
      (reads_sequence fun d hd => reads_disjunction (iha d hd))
      fun _ _ _ _ _ ht hu hd he => .call hd (kind_of_atom ht) he (kind_of_atom hu)
  | unary _ op _ ih =>
    intro ts us hts
    rw [Node.atoms] at hts
    obtain ⟨t, ts, rfl, ht, hoperand⟩ := List.map_eq_cons_iff.mp hts
    rw [Node.erased]
    cases op with
    | negate => exact .negate (kind_of_atom ht) (reads_enclosed (by decide) ih ts us hoperand)
    | not => exact .not (isWord_of_atom ht) (reads_enclosed (by decide) ih ts us hoperand)
  | arithmetic _ op _ _ ihl ihr =>
    have hleft : op.level.rank ≤ Level.disjunction.rank := by cases op <;> decide
    have hright : op.operand.rank ≤ Level.disjunction.rank := by cases op <;> decide
    rw [Node.atoms, Node.erased]
    exact reads_between (reads_enclosed hleft ihl) (reads_enclosed hright ihr)
      fun _ _ _ _ ht hl hr => .combine op.operand?_level hl (Arithmetic.sign?_of_atom ht) hr
  | compare _ op _ _ ihl ihr =>
    rw [Node.atoms, Node.erased]
    exact reads_between (reads_enclosed (by decide) ihl) (reads_enclosed (by decide) ihr)
      fun _ _ _ _ ht hl hr => .compare hl (comparison?_of_atom ht) hr
  | logic _ op _ _ ihl ihr =>
    have hleft : op.level.rank ≤ Level.disjunction.rank := by cases op <;> decide
    have hright : op.operand.rank ≤ Level.disjunction.rank := by cases op <;> decide
    rw [Node.atoms, Node.erased]
    exact reads_between (reads_enclosed hleft ihl) (reads_enclosed hright ihr)
      fun _ _ _ _ ht hl hr => .combine op.operand?_level hl (Connective.sign?_of_atom ht) hr

/-! ## Statements -/

/-- The part of a template that a statement of code is. -/
def Node.part (n : Node) : Part := if n.isBranch then .conditions else .statement

/-- What a statement of code was printed as is read as the statement. -/
def Node.ReadsCode (spell : Float → String) (n : Node) : Prop :=
  n.isText = false → n.part.Reads (n.code spell) n.erased

theorem Node.ReadsCode.statement {n : Node} (h : n.ReadsCode spell) (ht : n.isText = false) :
    Part.statement.Reads (n.code spell) n.erased := by
  intro ts us hts
  have hn := h ht ts us hts
  unfold Node.part at hn
  split at hn
  · exact .conditions hn
  · exact hn

/-- What a body was printed as is read in front of other statements. -/
theorem reads_bodyAtoms {nodes more : List Node} {ts us vs : List Token}
    (h : ∀ n ∈ nodes, IsStatement spell n ∧ n.ReadsCode spell)
    (hts : ts.map Token.atom = bodyAtoms spell nodes)
    (hmore : Parses .statements us (.block nowhere more) vs) :
    Parses .statements (ts ++ us) (.block nowhere (erasedNodes nodes ++ more)) vs := by
  induction nodes generalizing ts with
  | nil =>
    rw [bodyAtoms] at hts
    obtain rfl := List.map_eq_nil_iff.mp hts
    exact hmore
  | cons n rest ih =>
    obtain ⟨⟨hn, hcode⟩, hrest⟩ := List.forall_mem_cons.mp h
    cases hn with
    | text =>
      rw [bodyAtoms] at hts
      obtain ⟨t, ts, rfl, ht, hlater⟩ := List.map_eq_cons_iff.mp hts
      rw [erasedNodes, Node.erased, ← value_of_atom ht]
      exact .text (kind_of_atom ht) (ih hrest hlater)
    | _ =>
      rw [bodyAtoms_cons rfl] at hts
      obtain ⟨t, ts, rfl, ht, hts⟩ := List.map_eq_cons_iff.mp hts
      obtain ⟨ts, more, rfl, hstatement, hmore⟩ := List.map_eq_append_iff.mp hts
      obtain ⟨u, more, rfl, hu, hlater⟩ := List.map_eq_cons_iff.mp hmore
      rw [List.cons_append, List.append_assoc, erasedNodes]
      exact .separator (isSeparator_of_atom (.inr ht))
        (.statement (hcode.statement rfl ts _ hstatement) (ends_of_atom hu _)
          (.separator (isSeparator_of_atom (.inl hu)) (ih hrest hlater)))

/-- A body inside a block, up to the word that its block goes on with. -/
theorem reads_inner {nodes : List Node} {ts : List Token} {atoms : List Atom}
    (h : ∀ n ∈ nodes, IsStatement spell n ∧ n.ReadsCode spell)
    (hts : ts.map Token.atom = .exit :: (bodyAtoms spell nodes ++ .enter :: atoms)) :
    ∃ us, us.map Token.atom = atoms ∧ ∀ vs, Ends (ts ++ vs) ∧
      Parses .statements (ts ++ vs) (.block nowhere (erasedNodes nodes)) (us ++ vs) := by
  obtain ⟨t, ts, rfl, ht, hts⟩ := List.map_eq_cons_iff.mp hts
  obtain ⟨ts, more, rfl, hbody, hmore⟩ := List.map_eq_append_iff.mp hts
  obtain ⟨u, us, rfl, hu, hus⟩ := List.map_eq_cons_iff.mp hmore
  refine ⟨us, hus, fun vs => ⟨ends_of_atom ht _, ?_⟩⟩
  have hleave : Parses .statements (u :: us ++ vs) (.block nowhere []) (us ++ vs) :=
    .separator (isSeparator_of_atom (.inr hu)) .nothing
  have hinner := reads_bodyAtoms h hbody hleave
  rw [List.append_nil] at hinner
  rw [List.cons_append, List.append_assoc]
  exact .separator (isSeparator_of_atom (.inl ht)) hinner

/-- A body inside a block, up to the `end` of its block. -/
theorem reads_last {nodes : List Node} {ts : List Token}
    (h : ∀ n ∈ nodes, IsStatement spell n ∧ n.ReadsCode spell)
    (hts : ts.map Token.atom = .exit :: (bodyAtoms spell nodes ++ [.enter, .word "end"])) :
    ∃ t, t.isWord "end" = true ∧ ∀ us, Ends (ts ++ us) ∧
      Parses .statements (ts ++ us) (.block nowhere (erasedNodes nodes)) (t :: us) := by
  obtain ⟨us, hus, hinner⟩ := reads_inner h hts
  obtain ⟨t, none, rfl, ht, hnone⟩ := List.map_eq_cons_iff.mp hus
  obtain rfl := List.map_eq_nil_iff.mp hnone
  exact ⟨t, isWord_of_atom ht, hinner⟩

theorem part_of_isBranch {n : Node} (h : n.isBranch = true) : n.part = .conditions := if_pos h

/-- A condition with something else behind its body: one more condition of the chain, or
a body of its own. -/
theorem reads_otherwise {outer : Span} {otherwise : List Node} {t : Token}
    {ts us vs rest : List Token} {test body : Node}
    (h : ∀ n ∈ otherwise, IsStatement spell n ∧ n.ReadsCode spell) (ht : t.isWord "if" = true)
    (htest : Derives .disjunction ts test us) (hends : Ends us)
    (hbody : Parses .statements us body (rest ++ vs))
    (hrest : rest.map Token.atom = (Node.block outer otherwise).elseCode spell) :
    Parses .conditions (t :: ts)
      (.branch nowhere test body (.block nowhere (erasedNodes otherwise))) vs := by
  obtain ⟨n, rfl, hn, hcode⟩ | hcode := elseCode_block spell outer otherwise
  · rw [hcode] at hrest
    obtain ⟨u, rest, rfl, hu, hrest⟩ := List.map_eq_cons_iff.mp hrest
    have hnext := (h n List.mem_cons_self).2 (isText_of_isBranch hn) rest vs hrest
    rw [part_of_isBranch hn] at hnext
    exact .whenElseWhen ht htest hends hbody (isWord_of_atom hu) hnext
  · rw [hcode] at hrest
    obtain ⟨u, rest, rfl, hu, hrest⟩ := List.map_eq_cons_iff.mp hrest
    obtain ⟨v, hv, hlast⟩ := reads_last h hrest
    exact .whenElse ht htest hends hbody (isWord_of_atom hu) (hlast vs).1 (hlast vs).2 hv

theorem IsStatement.reads {n : Node} (h : IsStatement spell n) : n.ReadsCode spell := by
  induction h with
  | text => exact fun hn => nomatch hn
  | expression _ he =>
    intro _ ts us hts
    rw [Node.code] at hts
    exact .expression (reads_disjunction he.reads ts us hts)
  | assign _ htarget he =>
    intro _ ts us hts
    rw [Node.code] at hts
    obtain ⟨t, ts, rfl, ht, hts⟩ := List.map_eq_cons_iff.mp hts
    obtain ⟨u, ts, rfl, hu, hts⟩ := List.map_eq_cons_iff.mp hts
    rw [Node.erased, ← value_of_atom ht]
    exact .assign (kind_of_atom ht) (value_of_atom ht ▸ htarget.2) (kind_of_atom hu)
      (reads_disjunction he.reads ts us hts)
  | branch _ _ htest hbody _ ih =>
    intro _ ts us hts
    rw [Node.code, elseCode_absent] at hts
    obtain ⟨t, ts, rfl, ht, hts⟩ := List.map_eq_cons_iff.mp hts
    obtain ⟨ts, more, rfl, htest', hmore⟩ := List.map_eq_append_iff.mp hts
    obtain ⟨u, hu, hinner⟩ := reads_last (fun n hn => And.intro (hbody n hn) (ih n hn)) hmore
    rw [List.cons_append, List.append_assoc, Node.erased, Node.erased]
    exact .when (isWord_of_atom ht) (reads_disjunction htest.reads ts _ htest') (hinner us).1
      (hinner us).2 hu
  | @branchElse _ _ outer _ _ otherwise htest hbody _ hother _ ih ih' =>
    intro _ ts us hts
    rw [Node.code] at hts
    obtain ⟨t, ts, rfl, ht, hts⟩ := List.map_eq_cons_iff.mp hts
    obtain ⟨ts, more, rfl, htest', hmore⟩ := List.map_eq_append_iff.mp hts
    obtain ⟨rest, hrest, hinner⟩ := reads_inner (fun n hn => And.intro (hbody n hn) (ih n hn)) hmore
    rw [List.cons_append, List.append_assoc, Node.erased, Node.erased, Node.erased]
    exact reads_otherwise (fun n hn => And.intro (hother n hn) (ih' n hn)) (isWord_of_atom ht)
      (reads_disjunction htest.reads ts _ htest') (hinner us).1 (hinner us).2 hrest
  | loop _ _ htarget hsource hbody _ ih =>
    intro _ ts us hts
    rw [Node.code] at hts
    obtain ⟨t, ts, rfl, ht, hts⟩ := List.map_eq_cons_iff.mp hts
    obtain ⟨u, ts, rfl, hu, hts⟩ := List.map_eq_cons_iff.mp hts
    obtain ⟨v, ts, rfl, hv, hts⟩ := List.map_eq_cons_iff.mp hts
    obtain ⟨ts, more, rfl, hsource', hmore⟩ := List.map_eq_append_iff.mp hts
    obtain ⟨w, hw, hinner⟩ := reads_last (fun n hn => And.intro (hbody n hn) (ih n hn)) hmore
    simp only [List.cons_append, List.append_assoc]
    rw [Node.erased, Node.erased, ← value_of_atom hu]
    exact .loop (isWord_of_atom ht) (kind_of_atom hu) (value_of_atom hu ▸ htarget.2)
      (isWord_of_atom hv) (reads_disjunction hsource.reads ts _ hsource') (hinner us).1 (hinner us).2 hw

/-! ## Pages -/

/-- The grammar derives a page from what it was printed as. -/
theorem IsBody.reads {nodes : List Node} {ts us : List Token} (h : IsBody spell nodes)
    (hts : ts.map Token.atom = pageAtoms spell nodes) :
    Parses .statements (ts ++ us) (.block nowhere (erasedNodes nodes)) us := by
  cases nodes with
  | nil =>
    obtain ⟨t, ts, rfl, ht, hts⟩ := List.map_eq_cons_iff.mp hts
    obtain ⟨u, none, rfl, hu, hnone⟩ := List.map_eq_cons_iff.mp hts
    obtain rfl := List.map_eq_nil_iff.mp hnone
    exact .separator (isSeparator_of_atom (.inr ht))
      (.separator (isSeparator_of_atom (.inl hu)) .nothing)
  | cons n rest =>
    have hbody := fun m hm => And.intro (h.statements m hm) (h.statements m hm).reads
    have hreads : Parses .statements (ts ++ us) _ us := reads_bodyAtoms hbody hts .nothing
    rwa [List.append_nil] at hreads

theorem IsBody.layout_ne_nil {nodes : List Node} (h : IsBody spell nodes) :
    layout (pageAtoms spell nodes) ≠ [] := by
  cases nodes with
  | nil => exact List.cons_ne_nil _ _
  | cons n rest =>
    have hn := h.statements n List.mem_cons_self
    rw [pageAtoms]
    · cases hn with
      | @text _ value hvalue =>
        rw [bodyAtoms, layout, List.flatMap_cons]
        exact fun hnil => hvalue.1 (String.toList_eq_nil_iff.mp (List.append_eq_nil_iff.mp hnil).1)
      | _ =>
        rw [bodyAtoms_cons rfl, layout, List.flatMap_cons]
        exact List.cons_ne_nil _ _
    · simp

/-- A template that was printed is read as it was, without a complaint. -/
theorem Template.parse_printed {nodes : List Node} {options : TemplateOptions}
    (h : IsBody spell nodes) (hmode : options.lexer.mode = .default)
    (hdepth : (pageAtoms spell nodes).length + 1 < options.depthLimit) (path : Option String) :
    ∃ t page, Template.parse options path (printed spell nodes) = .ok t ∧ t.diagnostics = [] ∧
      t.page = some page ∧ page.erased = ⟨nowhere, .block nowhere (erasedNodes nodes), .absent⟩ := by
  obtain ⟨hclean, ts, p, htokens, hatoms⟩ := h.lays.lexes hmode path
  have hsource : printed spell nodes ≠ "" := fun hempty =>
    h.layout_ne_nil (String.ofList_eq_empty_iff.mp hempty)
  have hlength : (ts ++ [Token.eof p]).length = (pageAtoms spell nodes).length + 1 := by
    rw [← hatoms, List.length_append, List.length_map, List.length_singleton]
  have hlands := lands_readPage (o := { file := path, depthLimit := options.depthLimit })
    (c := { rest := ts ++ [Token.eof p] }) (.plain (h.reads hatoms)) rfl rfl
  obtain ⟨page, c, hrun, ⟨hpage, -⟩, hreported⟩ | ⟨hdeep, -⟩ := hlands
  · have hparse : pageOf { file := path, depthLimit := options.depthLimit }
        (ts ++ [Token.eof p]) = .ok (page, []) := by
      rw [pageOf, EStateM.run, hrun]
      exact congrArg _ (congrArg _ hreported)
    have hlexed : lex options.lexer (printed spell nodes).toList =
        lex options.lexer (layout (pageAtoms spell nodes)) := by
      rw [printed, String.toList_ofList]
    refine ⟨⟨some page, path, [], printed spell nodes⟩, page, ?_, rfl, rfl, hpage⟩
    rw [Template.parse, if_neg hsource, hlexed]
    dsimp only
    rw [htokens, hparse, hclean]
    rfl
  · have hdeep : options.depthLimit.toNat ≤ (ts ++ [Token.eof p]).length := hdeep
    omega

/-- A sum in a product, and two conditions that share their `end`. -/
theorem Template.parse_printed_chain :
    let spell : Float → String := fun _ => "2.5"
    let half : Node := .const nowhere (.float 0 (decimal "2.5".toList))
    let sum : Node := .arithmetic nowhere .add (.name nowhere "n") half
    let product : Node := .arithmetic nowhere .multiply sum (.const nowhere (.int 0 12))
    let inner : Node := .branch nowhere (.name nowhere "b") (.block nowhere []) .absent
    let nodes : List Node := [.text nowhere "Hi" 0, .expression nowhere product,
      .branch nowhere (.member nowhere (.name nowhere "a") "in")
        (.block nowhere [.text nowhere "!" 0]) (.block nowhere [inner])]
    printed spell nodes = "Hi\x7b\x7b ( n + 2.5 ) * 12 \x7d\x7d\x7b\x7b if a . in \x7d\x7d!" ++
        "\x7b\x7b else if b \x7d\x7d\x7b\x7b end \x7d\x7d" ∧
      ∃ t page, Template.parse {} none (printed spell nodes) = .ok t ∧ t.diagnostics = [] ∧
        t.page = some page ∧ page.erased = ⟨nowhere, .block nowhere nodes, .absent⟩ := by
  intro spell half sum product inner nodes
  have hname {name : String} (h : IsIdentifier name) (hr : name ∉ reservedWords) :
      IsExpression spell (.name nowhere name) := .name nowhere ⟨h, hr⟩
  have hproduct : IsExpression spell product :=
    .arithmetic nowhere .multiply
      (.arithmetic nowhere .add (hname ⟨_, _, rfl, rfl, List.all_eq_true.mp rfl⟩ (by decide))
        (.float nowhere ⟨'2', [], '5', [], by decide +kernel, List.all_eq_true.mp rfl⟩ rfl))
      (.int nowhere ⟨by decide, by decide +kernel⟩)
  have hinner : IsStatement spell inner :=
    .branch nowhere nowhere (hname ⟨_, _, rfl, rfl, List.all_eq_true.mp rfl⟩ (by decide)) nofun trivial
  have hshout : IsStatement spell (.text nowhere "!" 0) := .text nowhere ⟨by decide, by decide⟩
  have hmember : IsExpression spell (.member nowhere (.name nowhere "a") "in") :=
    .member nowhere (hname ⟨_, _, rfl, rfl, List.all_eq_true.mp rfl⟩ (by decide))
      ⟨_, _, rfl, rfl, List.all_eq_true.mp rfl⟩
  have hlast (value : String) (h : value.toList.getLast? ≠ some '\x7b') :
      ¬ (Node.text nowhere value 0).EndsInBrace := h
  have hbody : IsBody spell nodes := by
    have hapart : Apart False nodes :=
      ⟨fun h => Bool.false_ne_true h.2, hlast "Hi" (by decide), fun h => Bool.false_ne_true h.1, id,
        False.elim⟩
    refine ⟨?_, hapart⟩
    refine List.forall_mem_cons.mpr ⟨.text nowhere ⟨by decide, by decide⟩,
      List.forall_mem_cons.mpr ⟨.expression nowhere hproduct, List.forall_mem_singleton.mpr ?_⟩⟩
    exact .branchElse nowhere nowhere nowhere hmember (List.forall_mem_singleton.mpr hshout)
      (fun _ => hlast "!" (by decide)) (List.forall_mem_singleton.mpr hinner) (fun _ => id)
  have hdepth : ((pageAtoms spell nodes).length + 1 : Int) < (64 : Int) := by decide +kernel
  exact ⟨by decide +kernel, Template.parse_printed hbody rfl hdepth none⟩

end Stencil
