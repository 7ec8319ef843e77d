import Stencil.Proofs.Acceptance
import Stencil.Proofs.Lexing
import Stencil.Template

/-!
# The names in a source

An identifier begins with a letter or an underscore, so that none of them is what the
arguments are called. A template that was read without an error therefore never binds
that name (`Template.parse_bindsOnly`).
-/

namespace Stencil

/-! ## Identifiers -/

theorem isBindable_of_isNameStart {c : Char} (h : isNameStart c = true) (part : List Char) :
    IsBindable (String.ofList (c :: part)) := by
  intro hv
  have hlist : c :: part = ['$'] := by
    rw [← String.toList_ofList (l := c :: part), hv]
    rfl
  cases hlist
  exact absurd h (by decide)

theorem ite_ne_some {p : Prop} [Decidable p] {kind other : TokenKind} {rest : Option TokenKind}
    (hkind : kind ≠ other) (hrest : rest ≠ some other) :
    (if p then some kind else rest) ≠ some other := by
  split
  · exact fun h => hkind (Option.some.inj h)
  · exact hrest

/-- No sign is an identifier. -/
theorem signAt?_ne_identifier (c : Char) (cs : List Char) (b : Bool) :
    signAt? c cs ≠ some (.identifier, b) := by
  have hsign : sign? c ≠ some .identifier := by
    unfold sign?
    repeat refine ite_ne_some (by decide) ?_
    exact nofun
  have hequals : signWithEquals? c ≠ some .identifier := by
    unfold signWithEquals?
    repeat refine ite_ne_some (by decide) ?_
    exact nofun
  intro h
  unfold signAt? at h
  split at h
  · next kind hk =>
    split at hk
    · cases h
      exact hequals hk
    · cases hk
  · obtain ⟨kind, hk, hkind⟩ := Option.map_eq_some_iff.mp h
    cases hkind
    exact hsign hk

theorem scanNumber_ne_identifier (c : Char) (cs : List Char) (value : String) :
    (scanNumber c cs).1 ≠ .token .identifier value := by
  intro h
  unfold scanNumber at h
  dsimp only at h
  split at h
  · split at h <;> cases h
  · cases h

theorem scanString_ne_identifier (c : Char) (cs : List Char) (value : String) :
    (scanString c cs).1 ≠ .token .identifier value := by
  intro h
  unfold scanString at h
  split at h <;> cases h

/-- What a piece names, if it is an identifier, is bindable. -/
def PieceKind.NamesBindable (kind : PieceKind) : Prop :=
  ∀ value, kind = .token .identifier value → IsBindable value

theorem scanCode_namesBindable (inBlock : Bool) (c : Char) (cs : List Char) :
    (scanCode inBlock c cs).1.NamesBindable := by
  intro value h
  unfold scanCode at h
  split at h
  · cases h
  split at h
  · cases h
  split at h
  · cases h
  split at h
  · exact absurd h (scanNumber_ne_identifier c cs value)
  split at h
  · exact absurd h (scanString_ne_identifier c cs value)
  split at h
  · cases h
  split at h
  · next hstart =>
    cases h
    exact isBindable_of_isNameStart hstart _
  split at h
  · next hsign =>
    cases h
    exact absurd hsign (signAt?_ne_identifier c cs true)
  · next hsign =>
    cases h
    exact absurd hsign (signAt?_ne_identifier c cs false)
  · cases h

theorem nextPiece_namesBindable (options : LexerOptions) (inside : Section) (p : Position) (c : Char)
    (cs : List Char) : (nextPiece options inside p c cs).1.NamesBindable := by
  unfold nextPiece
  split
  · dsimp only
    split <;> exact nofun
  · split
    · exact nofun
    · exact scanCode_namesBindable true c cs
  · split
    · exact nofun
    · exact scanCode_namesBindable false c cs
  · exact scanCode_namesBindable false c cs
  · exact scanCode_namesBindable false c cs

/-! ## Sources -/

/-- What the identifiers among items name is bindable. -/
def NamesBindable (items : List LexItem) : Prop :=
  ∀ item ∈ items, ∀ t, item.token? = some t → t.kind = .identifier → IsBindable t.value

theorem namesBindable_nil : NamesBindable [] := fun _ h => nomatch h

theorem PieceKind.NamesBindable.cons {kind : PieceKind} (h : kind.NamesBindable)
    (lexeme : List Char) (p : Position) {items : List LexItem} (hs : Stencil.NamesBindable items) :
    Stencil.NamesBindable (.piece ⟨kind, lexeme, p⟩ :: items) := by
  intro item hitem t ht hk
  cases hitem with
  | head =>
    unfold LexItem.token? at ht
    dsimp only at ht
    split at ht
    · cases ht
      exact h _ (by rw [← hk])
    · cases ht
  | tail _ hitem => exact hs item hitem t ht hk

theorem NamesBindable.complaint {items : List LexItem} (hs : NamesBindable items)
    (problem : LexicalProblem) (start stop : Position) :
    NamesBindable (.complaint problem start stop :: items) := by
  intro item hitem t ht hk
  cases hitem with
  | head => cases ht
  | tail _ hitem => exact hs item hitem t ht hk

theorem lexFrom_namesBindable (options : LexerOptions) (inside : Section) (p : Position)
    (cs : List Char) : NamesBindable (lexFrom options inside p cs).items := by
  induction hn : cs.length using Nat.strongRecOn generalizing inside p cs with
  | ind n ih =>
    cases cs with
    | nil =>
      rw [lexFrom_nil]
      cases inside with
      | code opened => exact namesBindable_nil.complaint _ _ _
      | front => exact namesBindable_nil.complaint _ _ _
      | text => exact namesBindable_nil
      | script => exact namesBindable_nil
      | finished => exact namesBindable_nil
    | cons c cs =>
      by_cases hne : inside = .finished
      · subst hne
        rw [lexFrom_finished]
        exact namesBindable_nil
      · obtain ⟨kind, more, following, hp⟩ : ∃ kind more following,
            nextPiece options inside p c cs = (kind, more, following) := ⟨_, _, _, rfl⟩
        have hkind := nextPiece_namesBindable options inside p c cs
        rw [hp] at hkind
        rw [lexFrom_cons hne hp]
        have hlen : (cs.drop more).length < n := by
          rw [← hn, List.length_drop, List.length_cons]
          omega
        exact hkind.cons _ _ (ih _ hlen following _ _ rfl)

theorem lex_namesBindable (options : LexerOptions) (cs : List Char) :
    NamesBindable (lex options cs).items := by
  have hfront : NamesBindable (lexFrontMatter options cs).items := by
    unfold lexFrontMatter
    split
    · exact PieceKind.NamesBindable.cons (fun _ h => by cases h) _ _ (lexFrom_namesBindable _ _ _ _)
    · exact (lexFrom_namesBindable _ _ _ _).complaint _ _ _
  unfold lex
  split
  · exact lexFrom_namesBindable _ _ _ _
  · exact lexFrom_namesBindable _ _ _ _
  · exact hfront
  · exact hfront

theorem lex_namesIn (options : LexerOptions) (cs : List Char) :
    Grammar.NamesIn IsBindable (lex options cs).tokens := by
  intro t ht hk
  cases List.mem_append.mp ht with
  | inl ht =>
    obtain ⟨item, hitem, htoken⟩ := List.mem_filterMap.mp ht
    exact lex_namesBindable options cs item hitem t htoken hk
  | inr ht =>
    cases List.mem_singleton.mp ht
    cases hk

/-! ## Templates -/

/-- The page of a template that was read without an error is derived from the tokens of the source. -/
theorem Template.parsesPage_of_parse {options : TemplateOptions} {path : Option String}
    {source : String} {t : Template} (h : Template.parse options path source = .ok t)
    (he : t.hasErrors = false) {page : Page} (hpage : t.page = some page) :
    ∃ us, Grammar.ParsesPage (lex options.lexer source.toList).tokens page.erased us := by
  unfold Template.parse at h
  split at h
  · cases h
    nomatch hpage
  · cases hp : Grammar.pageOf { file := path, depthLimit := options.depthLimit }
        (lex options.lexer source.toList).tokens with
    | error e =>
      dsimp only at h
      rw [hp] at h
      cases h
    | ok result =>
      obtain ⟨page', errors⟩ := result
      dsimp only at h
      rw [hp] at h
      cases h
      cases hpage
      -- a complaint of the grammar would be an error
      have hnone : errors = [] := by
        cases errors with
        | nil => rfl
        | cons e errors =>
          rw [Template.hasErrors, Stencil.hasErrors, List.any_append, Bool.or_eq_false_iff] at he
          exact absurd he.2 (by simp [SyntaxError.diagnostic, Diagnostic.isError])
      subst hnone
      obtain ⟨c, hrun, hrep⟩ := Grammar.readPage_of_pageOf hp
      have hended : Grammar.Cursor.Ended { rest := (lex options.lexer source.toList).tokens } :=
        ⟨_, List.mem_append_right _ List.mem_cons_self, rfl⟩
      obtain ⟨hparses, -⟩ := Grammar.sound_readPage hended hrun hrep
      exact ⟨_, hparses⟩

/-- A template that was read without an error binds nothing but what may be bound. -/
theorem Template.parse_bindsOnly {options : TemplateOptions} {path : Option String} {source : String}
    {t : Template} (h : Template.parse options path source = .ok t) (he : t.hasErrors = false) :
    t.BindsOnly IsBindable := by
  intro page hpage
  obtain ⟨us, hparses⟩ := Template.parsesPage_of_parse h he hpage
  exact page.node.bindsOnly_erased.mp (hparses.bindsOnly (lex_namesIn _ _))

end Stencil
