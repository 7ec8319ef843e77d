import Stencil.Proofs.Excerpt
import Stencil.Proofs.SourceLines
import Stencil.Proofs.Tiling

/-!
# Front matter and what stands behind it

A source with front matter is read as two sources are: what stands between the marker lines
as a script, and what stands behind them as text, each by itself (`Template.parse_frontMatter`).
A section of the source is the reading of such a part, further down, and ends at the token that
stands for the end of the part: `Excerpt.likeness` sets the two beside each other.
-/

namespace Stencil

namespace Grammar

variable {o o' : Options} {c c' d : Cursor}

/-! ## The end of a section -/

/-- What a reader of sections leaves is the end of one: every other token is taken. -/
theorem readSectionBody_ends {n : Nat} {nodes : List Node} (hc : c.Ended) (hn : c.rest.length ≤ n)
    (h : readSectionBody o n c = .ok nodes d) : endsSection d.current = true := by
  induction n generalizing c nodes with
  | zero => exact absurd (Likeness.length_pos (same_cursors (o := o) hc)) (Nat.not_lt.mpr hn)
  | succ n ih =>
    rw [readSectionBody] at h
    obtain ⟨_, c₁, h₁, h⟩ := bind_ok h
    cases h₁
    obtain ⟨body, c₁, h₁, h⟩ := bind_ok h
    obtain ⟨t, c₂, h₂, h⟩ := bind_ok h
    cases h₂
    split at h
    · next hend =>
      cases h
      exact hend
    · next hend =>
      have hle := Nat.le_succ c.rest.length
      have halike := (mirrors_readStatements (L := .same o) _ _ hle hle).alike (same_cursors hc)
        (Nat.le_refl _)
      rw [h₁] at halike
      obtain ⟨hc₁, hlen⟩ : c₁.Ended ∧ c₁.rest.length ≤ c.rest.length := by
        cases halike with
        | ok _ hd hlen => exact ⟨hd.2.ended, hlen⟩
      have hne : c₁.current.kind ≠ .eof := IsBefore.ne_eof (Bool.eq_false_iff.mpr hend)
      obtain ⟨_, c₃, h₃, h⟩ := bind_ok h
      cases h₃
      obtain ⟨_, c₄, h₄, h⟩ := bind_ok h
      obtain ⟨hr, -, -⟩ := advance_ok h₄ hne
      obtain ⟨rest, c₅, h₅, h⟩ := bind_ok h
      cases h
      have hlen₄ : c₄.rest.length ≤ n := by
        have hr' := congrArg List.length hr
        simp only [List.length_cons] at hr'
        omega
      exact ih (Cursor.Ended.tail (d := c₄) hc₁ hr hne) hlen₄ h₅

namespace Excerpt

variable (x : Excerpt)

/-- The section of a source that the part is: read up to where it ends, with the statements of
the part, and with complaints about the same places. -/
theorem readSectionBody_excerpt (hfile : o'.file = o.file) (hdepth : o'.depthLimit = o.depthLimit)
    (hstop : endsSection x.stop = true) {ts : List Token} (hts : ∀ t ∈ ts, x.Holds t)
    (hrest : c'.rest = ts.map (Token.map x.move) ++ x.stop :: x.behind)
    (hlast : c'.last = some x.front) (hreported : placesOf c'.reported = x.reported) {n n' : Nat}
    (hn : ts.length < n) (hn' : c'.rest.length ≤ n') :
    match readSectionBody o n { rest := ts ++ [x.last] } with
    | .ok nodes d => ∃ d' more, readSectionBody o' n' c' = .ok (movedNodes (Span.map x.move) nodes) d' ∧
        d'.rest = x.stop :: x.behind ∧ placesOf d'.reported = x.reported ++ more ∧
        List.Forall₂ x.places (placesOf d.reported) more
    | .error (.fault e) _ => ∃ d', readSectionBody o' n' c' = .error (.fault e) d'
    | .error (.malformed _) _ => False := by
  have hclosed := x.closed hfile hdepth hstop
  have hcursors : x.Cursors ts { rest := ts ++ [x.last] } c' :=
    ⟨hts, rfl, hrest, .inl ⟨rfl, hlast⟩, [], by simpa [placesOf] using hreported, .nil⟩
  have hlen : (ts ++ [x.last]).length ≤ n := by simpa using hn
  have hlen' : (ts ++ [x.last]).length ≤ n' := by
    refine Nat.le_trans ?_ hn'
    simp [hrest]
  have halike := (mirrors_readSectionBody (L := x.likeness hfile hdepth) n n' hlen hlen').alike ⟨ts, hcursors⟩
    (Nat.le_refl _)
  have hsettles := Settles.readSectionBody o n { rest := ts ++ [x.last] }
  have hended : Cursor.Ended { rest := ts ++ [x.last] } := ⟨x.last, by simp, x.last_kind⟩
  have hends : ∀ nodes d, readSectionBody o n { rest := ts ++ [x.last] } = .ok nodes d →
      endsSection d.current = true := fun _ _ => readSectionBody_ends hended hlen
  generalize readSectionBody o n { rest := ts ++ [x.last] } = r at halike hsettles hends
  generalize readSectionBody o' n' c' = r' at halike
  cases halike with
  | @ok nodes nodes' d d' hnodes hd =>
    obtain ⟨us, hd⟩ := hd
    have hend : endsSection d.current = true := hends nodes d rfl
    rcases hd.current with ⟨rfl, -⟩ | ⟨t, vs, rfl, ht, -⟩
    · obtain ⟨more, hmore, hplaces⟩ := hd.reported
      exact ⟨d', more, by rw [hnodes]; rfl, hd.rest', hmore, hplaces⟩
    · have hbefore := (hd.holds t List.mem_cons_self).isBefore
      rw [← ht] at hbefore
      exact absurd hend (ne_true_of_eq_false hbefore)
  | malformed => exact hsettles _ _ rfl
  | fault => exact ⟨_, rfl⟩

end Excerpt

/-! ## Sections -/

theorem readSection_of_body {nodes : List Node}
    (h : readSectionBody o (c.rest.length + 1) c = .ok nodes d) :
    readSection o c = .ok (.block (d.spanFrom o c.current) nodes) d := by
  rw [readSection, bind_of_ok (current_run c), bind_of_ok (get_run c), bind_of_ok h,
    bind_of_ok (spanFrom_run o c.current d)]
  rfl

theorem readSection_of_error {e : Stop} (h : readSectionBody o (c.rest.length + 1) c = .error e d) :
    readSection o c = .error e d := by
  rw [readSection, bind_of_ok (current_run c), bind_of_ok (get_run c), bind_of_error h]

/-- A page without front matter is one section. -/
theorem readPage_plain (hk : c.current.kind ≠ .frontMatterMarker) :
    match readSectionBody o (c.rest.length + 1) c with
    | .ok nodes d => ∃ span span', readPage o c = .ok ⟨span, .block span' nodes, .absent⟩ d
    | .error e d => readPage o c = .error e d := by
  have hkind : ¬ (c.current.kind == .frontMatterMarker) = true := by simpa using hk
  have hpage : readPage o c = readPageBody o c.current .absent c := by
    rw [readPage_eq, bind_of_ok (current_run c), if_neg hkind]
  rw [hpage]
  cases hbody : readSectionBody o (c.rest.length + 1) c with
  | ok nodes d =>
    refine ⟨d.spanFrom o c.current, d.spanFrom o c.current, ?_⟩
    rw [readPageBody, bind_of_ok (readSection_of_body hbody), bind_of_ok (spanFrom_run o c.current d)]
    rfl
  | error e d =>
    dsimp only
    rw [readPageBody, bind_of_error (readSection_of_error hbody)]

/-- A page with front matter: two sections, with a marker in front of each. -/
theorem readPage_frontMatter {t u : Token} {ts us : List Token} {front : Node} (hc : c.rest = t :: ts)
    (ht : t.kind = .frontMatterMarker) (hfront : readSection o (c.behind t ts) = .ok front d)
    (hd : d.rest = u :: us) (hu : u.kind = .frontMatterMarker) :
    match readSection o (d.behind u us) with
    | .ok body d' => ∃ span, readPage o c = .ok ⟨span, body, front⟩ d'
    | .error e d' => readPage o c = .error e d' := by
  have hpage : readPage o c = readPageBody o t front (d.behind u us) := by
    have hkind : (c.current.kind == .frontMatterMarker) = true := by
      rw [Cursor.current_of_rest hc, ht]
      rfl
    have hkind' : (d.current.kind == .frontMatterMarker) = true := by
      rw [Cursor.current_of_rest hd, hu]
      rfl
    rw [readPage_eq, bind_of_ok (current_run c), if_pos hkind,
      bind_of_ok (advance_run hc (by rw [ht]; decide)), bind_of_ok hfront, readPageTail,
      bind_of_ok (current_run d), if_pos hkind', bind_of_ok (advance_run hd (by rw [hu]; decide)),
      Cursor.current_of_rest hc]
  rw [hpage]
  cases hbody : readSection o (d.behind u us) with
  | ok body d' =>
    refine ⟨d'.spanFrom o t, ?_⟩
    rw [readPageBody, bind_of_ok hbody, bind_of_ok (spanFrom_run o t d')]
    rfl
  | error e d' =>
    dsimp only
    rw [readPageBody, bind_of_error hbody]

theorem readPage_of_error {t : Token} {ts : List Token} {e : Stop} (hc : c.rest = t :: ts)
    (ht : t.kind = .frontMatterMarker) (hfront : readSection o (c.behind t ts) = .error e d) :
    readPage o c = .error e d := by
  have hkind : (c.current.kind == .frontMatterMarker) = true := by
    rw [Cursor.current_of_rest hc, ht]
    rfl
  rw [readPage_eq, bind_of_ok (current_run c), if_pos hkind,
    bind_of_ok (advance_run hc (by rw [ht]; decide)), bind_of_error hfront]

end Grammar

open Grammar

/-! ## Parts of a source as templates -/

theorem isBefore_of_inCode {kind : TokenKind} (h : kind.inCode = true) (value : String)
    (start stop : Position) : IsBefore ⟨kind, value, start, stop⟩ := by
  cases kind <;> first | rfl | cases h

/-- What is cut off a source that is not front matter ends no section. -/
theorem isBefore_of_nextPiece {options : LexerOptions} {inside : Section} (hinside : inside ≠ .front)
    {p : Position} {c : Char} {cs : List Char} {kind : TokenKind} {value : String}
    (h : (nextPiece options inside p c cs).1 = .token kind value) (start stop : Position) :
    IsBefore ⟨kind, value, start, stop⟩ := by
  cases inside with
  | front => exact absurd rfl hinside
  | text =>
    simp only [nextPiece] at h
    split at h <;> cases h <;> rfl
  | code opened =>
    simp only [nextPiece] at h
    split at h
    · cases h
      rfl
    · exact isBefore_of_inCode (inCode_of_scanCode h) value start stop
  | script | finished => exact isBefore_of_inCode (inCode_of_scanCode h) value start stop

theorem isBefore_of_lexFrom {options : LexerOptions} {inside : Section} (hinside : inside ≠ .front)
    (p : Position) (cs : List Char) {t : Token}
    (ht : t ∈ (lexFrom options inside p cs).items.filterMap LexItem.token?) : IsBefore t := by
  induction hn : cs.length using Nat.strong_induction_on generalizing inside p cs with
  | _ n ih =>
    cases cs with
    | nil =>
      rw [lexFrom_nil] at ht
      cases inside with
      | front => exact absurd rfl hinside
      | text | code | script | finished => cases ht
    | cons c cs =>
      by_cases hfinished : inside = .finished
      · rw [hfinished, lexFrom_finished] at ht
        cases ht
      have hfollowing := nextPiece_ne_front options hinside p c cs
      have hbefore {kind : TokenKind} {value : String}
          (h : (nextPiece options inside p c cs).1 = .token kind value) (start stop : Position) :
          IsBefore ⟨kind, value, start, stop⟩ := isBefore_of_nextPiece hinside h start stop
      generalize hpiece : nextPiece options inside p c cs = piece at hfollowing hbefore
      obtain ⟨kind, more, following⟩ := piece
      have hlt : (cs.drop more).length < n := by
        rw [List.length_drop, ← hn, List.length_cons]
        omega
      rw [lexFrom_cons hfinished hpiece] at ht
      obtain ⟨item, hitem, ht⟩ := List.mem_filterMap.mp ht
      rcases List.mem_cons.mp hitem with rfl | hitem
      · cases kind with
        | token kind value =>
          cases ht
          exact hbefore rfl _ _
        | blank | comment | flaw => cases ht
      · exact ih _ hlt hfollowing _ _ (List.mem_filterMap.mpr ⟨item, hitem, ht⟩) rfl

namespace Template

/-- The statements of a template, its front matter apart. -/
def statements (t : Template) : List Node :=
  match t.page with
  | some ⟨_, .block _ body, _⟩ => body
  | _ => []

/-- Sources without front matter are text or a script. -/
theorem lex_plain {options : LexerOptions} (hmode : options.mode = .default ∨ options.mode = .scriptOnly)
    (cs : List Char) : ∃ inside, (inside = .text ∨ inside = .script) ∧
      lex options cs = lexFrom options inside .start cs := by
  rcases hmode with hmode | hmode
  · exact ⟨.text, .inl rfl, by rw [lex, hmode]⟩
  · exact ⟨.script, .inr rfl, by rw [lex, hmode]⟩

/-- Sources without front matter have no markers. -/
theorem tokens_plain {options : TemplateOptions}
    (hmode : options.lexer.mode = .default ∨ options.lexer.mode = .scriptOnly) (source : String) :
    ∀ t ∈ tokens options source, t.kind ≠ .frontMatterMarker := by
  obtain ⟨inside, hinside, hlex⟩ := lex_plain hmode source.toList
  have hfront : inside ≠ .front := by
    rcases hinside with rfl | rfl <;> exact Section.noConfusion
  intro t ht
  rw [tokens, hlex, Lexed.tokens, List.mem_append, List.mem_singleton] at ht
  rcases ht with ht | rfl
  · intro hk
    have hbefore := isBefore_of_lexFrom hfront _ _ ht
    rw [IsBefore, endsSection, hk] at hbefore
    cases hbefore
  · exact TokenKind.noConfusion

/-- Without front matter, a template is the statements of one section. -/
theorem parse_plain {options : TemplateOptions} (path : Option String) (source : String)
    (hmode : options.lexer.mode = .default ∨ options.lexer.mode = .scriptOnly) :
    match readSectionBody (grammar options path) ((tokens options source).length + 1)
        { rest := tokens options source } with
    | .ok nodes d => ∃ t, Template.parse options path source = .ok t ∧ t.statements = nodes ∧
        t.diagnostics = (lex options.lexer source.toList).diagnostics path ++
          d.reported.map (SyntaxError.diagnostic path)
    | .error (.fault e) _ => Template.parse options path source = .error e
    | .error (.malformed _) _ => False := by
  obtain ⟨inside, hinside, hlex⟩ := lex_plain hmode source.toList
  by_cases hempty : source = ""
  · subst hempty
    have hlex : lex options.lexer "".toList = ⟨[], .start⟩ := by
      rw [hlex, show "".toList = [] from rfl, lexFrom_nil]
      rcases hinside with rfl | rfl <;> rfl
    rw [tokens, hlex]
    exact ⟨_, rfl, rfl, rfl⟩
  · have hended : Cursor.Ended { rest := tokens options source } := (lex options.lexer source.toList).ended
    have hkind := tokens_plain hmode source _ (List.mem_of_mem_head? hended.head)
    have hpage := readPage_plain (o := grammar options path) hkind
    have hsettles := Settles.readSectionBody (grammar options path) ((tokens options source).length + 1)
      { rest := tokens options source }
    generalize readSectionBody (grammar options path) ((tokens options source).length + 1)
      { rest := tokens options source } = r at hpage hsettles
    cases r with
    | ok nodes d =>
      obtain ⟨span, span', hpage⟩ := hpage
      exact ⟨_, parse_of_readPage hempty hpage, rfl, rfl⟩
    | error e d =>
      cases e with
      | fault e => exact parse_of_fault hempty hpage
      | malformed e => exact hsettles e d rfl

/-- A template that is read without front matter has none. -/
theorem frontMatter?_of_plain {options : TemplateOptions} {path : Option String} {source : String}
    {t : Template} (hmode : options.lexer.mode = .default ∨ options.lexer.mode = .scriptOnly)
    (h : Template.parse options path source = .ok t) : t.frontMatter? = none := by
  obtain ⟨-, rfl⟩ | ⟨-, page, c, hread, hpage, -⟩ := parse_ok h
  · rfl
  · have hended : Cursor.Ended { rest := tokens options source } :=
      (lex options.lexer source.toList).ended
    have hkind := tokens_plain hmode source _ (List.mem_of_mem_head? hended.head)
    have hplain := readPage_plain (o := grammar options path) hkind
    have hfront : page.frontMatter = .absent := by
      split at hplain
      · obtain ⟨span, span', hplain⟩ := hplain
        rw [hplain] at hread
        cases hread
        rfl
      · rw [hplain] at hread
        cases hread
    rw [Template.frontMatter?, hpage]
    simp only [hfront]

/-- Tokens do not stand above the first line. -/
theorem one_le_line {options : LexerOptions} {cs : List Char} {t : Token}
    (ht : t ∈ (lex options cs).tokens) : 1 ≤ t.start.line := by
  obtain ⟨final, htiles⟩ := tiles_lex options cs
  obtain ⟨a, b, -, -, hspan⟩ := htiles.token none ht
  have hstart : t.start = positionAt cs a := congrArg Span.start hspan
  rw [hstart]
  show 1 ≤ 1 + ((cs.take a).count '\n' : Int)
  omega

/-- From `c`, a section is read up to `rest` as a part of the source is read by itself, but `m`
lines further down. `lexical` is what is wrong with the text of the part. -/
def ReadsAs (o : Grammar.Options) (m : Nat) (part : Except Fault Template) (lexical : List Diagnostic)
    (c : Cursor) (rest : List Token) : Prop :=
  match part with
  | .ok t => ∃ es d, t.diagnostics = lexical ++ es.map (SyntaxError.diagnostic o.file) ∧
      readSectionBody o (c.rest.length + 1) c = .ok (movedNodes (Span.down m) t.statements) d ∧
      d.rest = rest ∧ placesOf d.reported = placesOf c.reported ++ (placesOf es).map (Position.down m)
  | .error e => ∃ d, readSectionBody o (c.rest.length + 1) c = .error (.fault e) d

variable {options : TemplateOptions} {path : Option String} {o : Grammar.Options}

theorem readsAs_part (hdepth : o.depthLimit = options.depthLimit) {part : String}
    (hmode : options.lexer.mode = .default ∨ options.lexer.mode = .scriptOnly) {m : Nat}
    {front stop : Token} {behind : List Token} {c : Cursor} (hends : endsSection stop = true)
    (hstart : stop.start = (lex options.lexer part.toList).stop.down m) (hfront : front.start.line ≤ m)
    (hrest : c.rest = ((lex options.lexer part.toList).items.filterMap LexItem.token?).map
      (Token.down m) ++ stop :: behind) (hlast : c.last = some front) :
    ReadsAs o m (Template.parse options o.file part)
      ((lex options.lexer part.toList).diagnostics o.file) c (stop :: behind) := by
  let x : Excerpt := {
    move := Position.down m
    front
    last := .eof (lex options.lexer part.toList).stop
    stop
    behind
    places := fun p q => q = p.down m
    reported := placesOf c.reported
    last_kind := rfl
    ends := endsCode_of_endsSection hends
    before_move := Position.before_down
    places_move := fun _ => rfl
    places_last := hstart }
  have hholds : ∀ t ∈ (lex options.lexer part.toList).items.filterMap LexItem.token?, x.Holds t := by
    intro t ht
    refine ⟨?_, ?_⟩
    · obtain ⟨inside, hinside, hlex⟩ := lex_plain hmode part.toList
      rw [hlex] at ht
      exact isBefore_of_lexFrom (by rcases hinside with rfl | rfl <;> exact Section.noConfusion) _ _ ht
    · have hline := one_le_line (List.mem_append_left [Token.eof (lex options.lexer part.toList).stop] ht)
      refine Position.before_of_line_lt ?_
      show front.start.line < t.start.line + m
      omega
  have hpart := parse_plain o.file part hmode
  have htokens : tokens options part =
      (lex options.lexer part.toList).items.filterMap LexItem.token? ++ [x.last] := rfl
  have hlen : ((lex options.lexer part.toList).items.filterMap LexItem.token?).length <
      (tokens options part).length + 1 := by
    simp only [htokens, List.length_append, List.length_singleton]
    omega
  have hfile : o.file = (grammar options o.file).file := rfl
  have hsection := x.readSectionBody_excerpt hfile hdepth hends hholds hrest hlast rfl hlen
    (Nat.le_succ c.rest.length)
  rw [← htokens] at hsection
  generalize readSectionBody (grammar options o.file) ((tokens options part).length + 1)
    { rest := tokens options part } = r at hpart hsection
  cases r with
  | ok nodes d =>
    obtain ⟨t, hparse, hnodes, hdiagnostics⟩ := hpart
    obtain ⟨d', more, hread, hrest', hreported, hplaces⟩ := hsection
    have hmore : more = (placesOf d.reported).map (Position.down m) := by
      have hmap : List.Forall₂ (flip Eq) ((placesOf d.reported).map (Position.down m)) more :=
        List.forall₂_map_left_iff.mpr hplaces
      have hflip := hmap.flip
      rwa [List.forall₂_eq_eq_eq] at hflip
    rw [hparse]
    exact ⟨d.reported, d', hdiagnostics, hnodes ▸ hread, hrest', hmore ▸ hreported⟩
  | error e d =>
    cases e with
    | malformed => exact hpart.elim
    | fault e =>
      rw [show Template.parse options o.file part = .error e from hpart]
      exact hsection

/-- Nothing stands behind the last line. -/
theorem readsAs_nothing {u : Token} {c : Cursor} (hu : endsSection u = true) (hrest : c.rest = [u])
    (m : Nat) : ReadsAs o m (Template.parse options path "") [] c [u] := by
  have hend : endsSection c.current = true := by rw [Cursor.current_of_rest hrest, hu]
  have hparse : Template.parse options path "" = .ok { path } := rfl
  have hread : readSectionBody o (c.rest.length + 1) c = .ok [] c := by
    simp only [readSectionBody, readStatements, bind_run, current_run, get_run, hend, Bool.true_or,
      if_true, pure_run]
  rw [hparse]
  exact ⟨[], c, rfl, hread, hrest, by simp [placesOf]⟩

/-- What is read of a source is what is read of its front matter and of the text behind it, which
has `above` lines above it: the statements of both, and complaints about the places that are
complained about in them. -/
structure Joins (above : Nat) (front content whole : Template) : Prop where
  page : ∃ span span' span'', whole.page = some ⟨span,
    .block span' (movedNodes (Span.down above) content.statements),
    .block span'' (movedNodes (Span.down 1) front.statements)⟩
  complaints : (whole.diagnostics.map (·.span.start)).Perm
    (front.diagnostics.map (·.span.start.down 1) ++ content.diagnostics.map (·.span.start.down above))

theorem Joins.clean_iff {above : Nat} {front content whole : Template}
    (h : Joins above front content whole) :
    whole.diagnostics = [] ↔ front.diagnostics = [] ∧ content.diagnostics = [] := by
  have hlen := h.complaints.length_eq
  simp only [List.length_map, List.length_append] at hlen
  simp only [← List.length_eq_zero_iff]
  omega

/-- The two parts come out as the source does: as templates that make it up, or at the same fault. -/
def Agrees (above : Nat) (whole front content : Except Fault Template) : Prop :=
  match front, content with
  | .ok front, .ok content => ∃ t, whole = .ok t ∧ Joins above front content t
  | .ok _, .error e => whole = .error e
  | .error e, _ => whole = .error e

/-- A template comes of the reading, and nothing is wrong with it. -/
def IsClean (result : Except Fault Template) : Prop := ∃ t, result = .ok t ∧ t.diagnostics = []

theorem Agrees.isClean_iff {above : Nat} {whole front content : Except Fault Template}
    (h : Agrees above whole front content) : IsClean whole ↔ IsClean front ∧ IsClean content := by
  have hfault (e : Fault) : ¬ IsClean (.error e) := by
    rintro ⟨t, ht, -⟩
    cases ht
  have hok (t : Template) : IsClean (.ok t) ↔ t.diagnostics = [] := by
    constructor
    · rintro ⟨u, hu, hclean⟩
      cases hu
      exact hclean
    · exact fun hclean => ⟨t, rfl, hclean⟩
  cases front with
  | error e =>
    have hwhole : whole = .error e := h
    simp [hwhole, hfault]
  | ok front =>
    cases content with
    | error e =>
      have hwhole : whole = .error e := h
      simp [hwhole, hfault]
    | ok content =>
      obtain ⟨t, rfl, ht⟩ := h
      rw [hok, hok, hok, ht.clean_iff]

/-- The places that are complained about: what is wrong with the texts of two parts and then with
their sections is what is wrong with the one part and then with the other. -/
theorem complaints_perm {front content whole lexical lexical' : List Diagnostic}
    {es es' all : List SyntaxError} {above : Nat}
    (hfront : front = lexical ++ es.map (SyntaxError.diagnostic path))
    (hcontent : content = lexical' ++ es'.map (SyntaxError.diagnostic path))
    (hwhole : whole = lexical.map (Diagnostic.down 1) ++ lexical'.map (Diagnostic.down above) ++
      all.map (SyntaxError.diagnostic path))
    (hall : placesOf all =
      (placesOf es).map (Position.down 1) ++ (placesOf es').map (Position.down above)) :
    (whole.map (·.span.start)).Perm
      (front.map (·.span.start.down 1) ++ content.map (·.span.start.down above)) := by
  have hplaces : (all.map (SyntaxError.diagnostic path)).map (·.span.start) = placesOf all := by
    simp [placesOf, SyntaxError.diagnostic]
  have hlexical (m : Nat) (ds : List Diagnostic) :
      (ds.map (Diagnostic.down m)).map (·.span.start) = ds.map (·.span.start.down m) := by
    simp [Diagnostic.down, Span.down]
  have herrors (m : Nat) (es : List SyntaxError) :
      (es.map (SyntaxError.diagnostic path)).map (·.span.start.down m) =
        (placesOf es).map (Position.down m) := by
    simp [placesOf, SyntaxError.diagnostic]
  rw [hwhole, List.map_append, hplaces, hall, List.map_append, hlexical, hlexical, hfront, hcontent,
    List.map_append, List.map_append, herrors, herrors, List.append_assoc, List.append_assoc]
  exact (List.perm_append_comm_assoc _ _ _).append_left _

/-- Two sections that are read as parts of a source are. -/
theorem agrees_of_readsAs {source : String} (hsource : source ≠ "") {t u : Token}
    {ts us rest : List Token} {above : Nat} {front content : Except Fault Template}
    {lexical lexical' : List Diagnostic} (htokens : tokens options source = t :: ts)
    (ht : t.kind = .frontMatterMarker) (hu : u.kind = .frontMatterMarker)
    (hlexical : (lex options.lexer source.toList).diagnostics path =
      lexical.map (Diagnostic.down 1) ++ lexical'.map (Diagnostic.down above))
    (hfront : ReadsAs (grammar options path) 1 front lexical { last := some t, rest := ts } (u :: us))
    (hcontent : ∀ c : Cursor, c.last = some u → c.rest = us →
      ReadsAs (grammar options path) above content lexical' c rest) :
    Agrees above (Template.parse options path source) front content := by
  let c : Cursor := { rest := tokens options source }
  have hbehind : c.behind t ts = { last := some t, rest := ts } := rfl
  cases front with
  | error e =>
    obtain ⟨d, hread⟩ := hfront
    exact parse_of_fault hsource
      (readPage_of_error (c := c) htokens ht (readSection_of_error (hbehind ▸ hread)))
  | ok front =>
    obtain ⟨es, d, hes, hread, hd, hreported⟩ := hfront
    have hpage := readPage_frontMatter (c := c) htokens ht (readSection_of_body (hbehind ▸ hread)) hd hu
    have hrest := hcontent (d.behind u us) rfl rfl
    cases content with
    | error e =>
      obtain ⟨d', hread'⟩ := hrest
      rw [readSection_of_error hread'] at hpage
      exact parse_of_fault hsource hpage
    | ok content =>
      obtain ⟨es', d', hes', hread', -, hreported'⟩ := hrest
      rw [readSection_of_body hread'] at hpage
      obtain ⟨span, hpage⟩ := hpage
      refine ⟨_, parse_of_readPage hsource hpage, ⟨span, _, _, rfl⟩, ?_⟩
      have hall : placesOf d'.reported =
          (placesOf es).map (Position.down 1) ++ (placesOf es').map (Position.down above) :=
        hreported'.trans (congrArg (· ++ _) hreported)
      exact complaints_perm hes hes' (congrArg (· ++ _) hlexical) hall

/-! ## Sources with front matter -/

/-- Sources are cut to their end, unless front matter is all that is read. -/
theorem lex_stop {options : LexerOptions} (hmode : options.mode ≠ .frontMatterOnly) (cs : List Char) :
    (lex options cs).stop = Position.start.after cs := by
  obtain ⟨final, -, hstop, hend⟩ := lies_lex options cs
  rw [hstop, hend hmode, positionAt_eq, List.take_length]

/-- What is said about the text of a source is said about the template. -/
theorem mem_diagnostics_of_parse {source : String} {t : Template}
    (h : Template.parse options path source = .ok t) {d : Diagnostic}
    (hd : d ∈ (lex options.lexer source.toList).diagnostics path) (hsource : source ≠ "") :
    d ∈ t.diagnostics := by
  obtain ⟨page, c, hread, -⟩ | ⟨e, c, hread, -⟩ :=
    readPage_total (grammar options path) (lex options.lexer source.toList).ended
  · rw [parse_of_readPage hsource hread] at h
    cases h
    exact List.mem_append_left _ hd
  · rw [parse_of_fault hsource hread] at h
    cases h

/-- The text behind front matter, below a line `closing` that `m` lines are above. -/
theorem readsAs_content {text : TemplateOptions} (hdepth : o.depthLimit = text.depthLimit)
    {closing : List Char} {behind : List (List Char)} (h : Lines (closing :: behind))
    (hmode : text.lexer.mode = .default)
    (lexer : LexerOptions) {m : Nat} {u : Token} (hu : u.start = Position.start.down m) :
    let content := String.ofList behind.flatten
    let below := lexFrom lexer .text (u.start.after closing) behind.flatten
    (∀ c : Cursor, c.last = some u → c.rest = below.tokens →
      ReadsAs o (m + 1) (Template.parse text o.file content)
        ((lex text.lexer content.toList).diagnostics o.file) c [.eof below.stop]) ∧
      below.diagnostics o.file =
        ((lex text.lexer content.toList).diagnostics o.file).map (Diagnostic.down (m + 1)) := by
  intro content below
  have hlex (cs : List Char) : lex text.lexer cs = lexFrom text.lexer .text .start cs := by
    rw [lex, hmode]
  cases behind with
  | nil =>
    have hnothing : lex text.lexer content.toList = ⟨[], .start⟩ := by
      rw [hlex]
      exact lexFrom_nil text.lexer .text .start
    have hbelow : below = ⟨[], u.start.after closing⟩ := lexFrom_nil lexer .text _
    rw [hnothing, hbelow]
    exact ⟨fun c _ hrest => readsAs_nothing rfl hrest (m + 1), rfl⟩
  | cons line behind =>
    have htext : Section.text ≠ .front := Section.noConfusion
    have hplace : u.start.after closing = Position.start.down (m + 1) := by
      have hafter := h.after [closing] (p := u.start) (List.cons_ne_nil line behind) (by rw [hu]; rfl)
      simp only [List.flatten_cons, List.flatten_nil, List.append_nil] at hafter
      rw [hafter, hu]
      simp only [Position.down, List.length_singleton, Position.mk.injEq, and_true]
      omega
    have hbelow : below = (lex text.lexer content.toList).down (m + 1) := by
      rw [hlex, String.toList_ofList, ← lexFrom_down text.lexer lexer htext, ← hplace]
      rfl
    rw [hbelow]
    refine ⟨fun c hlast hrest => ?_, Lexed.diagnostics_down _ o.file⟩
    rw [Lexed.tokens_down, Lexed.tokens, List.map_append] at hrest
    refine readsAs_part hdepth (.inl hmode) rfl rfl ?_ hrest hlast
    rw [hu]
    show 1 + (m : Int) ≤ (m + 1 : Nat)
    omega

/-- A source with front matter that a line closes. -/
theorem agrees_closed (path : Option String) {source : String} {first closing : List Char}
    {inner behind : List (List Char)} (script text : TemplateOptions)
    (h : Lines (first :: (inner ++ closing :: behind)))
    (hsource : source.toList = (first :: (inner ++ closing :: behind)).flatten)
    (hmode : options.lexer.mode = .frontMatterAndContent)
    (hmarker : '\n' ∉ options.lexer.marker.toList)
    (hfirst : isMarkerLine options.lexer.marker.toList first = true)
    (hinner : ∀ line ∈ inner, isMarkerLine options.lexer.marker.toList line = false)
    (hclosing : isMarkerLine options.lexer.marker.toList closing = true)
    (hscript : script.lexer.mode = .scriptOnly) (htext : text.lexer.mode = .default)
    (hdepth : script.depthLimit = options.depthLimit) (hdepth' : text.depthLimit = options.depthLimit) :
    Agrees (inner.length + 2) (Template.parse options path source)
      (Template.parse script path (String.ofList inner.flatten))
      (Template.parse text path (String.ofList behind.flatten)) := by
  have hne : source ≠ "" := by
    rintro rfl
    exact h.ne_nil (List.append_eq_nil_iff.mp hsource.symm).1
  have hrest : Lines (inner ++ closing :: behind) := h.append_inv [first]
  let marker (line : List Char) (p : Position) : Token :=
    ⟨.frontMatterMarker, options.lexer.marker, p, p.after line⟩
  let q := Position.start.down (inner.length + 1)
  let below := lexFrom options.lexer .text (q.after closing) behind.flatten
  have hfront : lex script.lexer (String.ofList inner.flatten).toList =
      lexFrom script.lexer .script .start inner.flatten := by
    rw [String.toList_ofList, lex, hscript]
  have hstop : (lex script.lexer (String.ofList inner.flatten).toList).stop.down 1 = q := by
    rw [lex_stop (by rw [hscript]; decide), String.toList_ofList,
      hrest.after inner (List.cons_ne_nil closing behind) rfl]
    simp only [q, Position.down, Position.mk.injEq, and_true]
    omega
  have hlex := lex_closed h hmode hmarker hfirst rfl hinner hclosing script.lexer
  rw [← hsource, ← hfront] at hlex
  obtain ⟨hcontent, hlexical⟩ := readsAs_content (o := grammar options path) hdepth'.symm
    (hrest.append_inv inner) htext options.lexer (u := marker closing q) rfl
  have htokens : tokens options source = marker first .start ::
      (((lex script.lexer (String.ofList inner.flatten).toList).items.filterMap LexItem.token?).map
        (Token.down 1) ++ marker closing q :: below.tokens) := by
    have hpiece (line : List Char) (p : Position) : (LexItem.piece
        ⟨.token .frontMatterMarker options.lexer.marker, line, p⟩).token? = some (marker line p) := rfl
    rw [tokens, hlex, Lexed.tokens_behind, List.filterMap_cons_some (hpiece first .start),
      List.filterMap_append, Lexed.down, filterMap_token?_down, List.cons_append, List.append_assoc]
    rfl
  have hdiagnostics : (lex options.lexer source.toList).diagnostics path =
      ((lex script.lexer (String.ofList inner.flatten).toList).diagnostics path).map
        (Diagnostic.down 1) ++
      ((lex text.lexer (String.ofList behind.flatten).toList).diagnostics path).map
        (Diagnostic.down (inner.length + 2)) := by
    rw [hlex, Lexed.diagnostics_behind _ _ q, ← hlexical, ← Lexed.diagnostics_down,
      Lexed.diagnostics, List.filterMap_cons_none rfl, List.filterMap_append,
      List.filterMap_cons_none rfl, List.filterMap_nil, List.append_nil]
    rfl
  refine agrees_of_readsAs hne htokens rfl rfl hdiagnostics ?_ hcontent
  exact readsAs_part hdepth.symm (.inr hscript) rfl hstop.symm (Int.le_refl _) rfl rfl

/-- The front matter of a source and the text behind it are read independently of each other.
Where the first line is a marker line, front matter goes up to the next one: what stands between
them is read as a script is by itself, and what stands behind them as text is by itself. -/
theorem parse_frontMatter (options : TemplateOptions) (path : Option String) (source : String)
    (hmode : options.lexer.mode = .frontMatterAndContent)
    (hmarker : '\n' ∉ options.lexer.marker.toList) {first : List Char} {lines : List (List Char)}
    (hlines : sourceLines source.toList = first :: lines)
    (hfirst : isMarkerLine options.lexer.marker.toList first = true) :
    let isInner := fun line => !isMarkerLine options.lexer.marker.toList line
    let whole := Template.parse options path source
    match lines.dropWhile isInner with
    | [] =>
      ∃ stop, let d : Diagnostic := ⟨.error, ⟨path, .start, stop⟩, LexicalProblem.markerMissing.message⟩
        d ∈ (lex options.lexer source.toList).diagnostics path ∧ ∀ t, whole = .ok t → d ∈ t.diagnostics
    | _ :: behind =>
      let inner := lines.takeWhile isInner
      let script := { options with lexer.mode := .scriptOnly }
      let text := { options with lexer.mode := .default }
      let front := Template.parse script path (String.ofList inner.flatten)
      let content := Template.parse text path (String.ofList behind.flatten)
      (IsClean whole ↔ IsClean front ∧ IsClean content) ∧
        Agrees (inner.length + 2) whole front content := by
  have h : Lines (first :: lines) := hlines ▸ lines_sourceLines source.toList
  have hsource : source.toList = (first :: lines).flatten := hlines ▸ (flatten_sourceLines _).symm
  have hne : source ≠ "" := by
    rintro rfl
    have hnil : first ++ lines.flatten = [] := hsource.symm
    exact h.ne_nil (List.append_eq_nil_iff.mp hnil).1
  intro isInner whole
  have hsplit : lines.takeWhile isInner ++ lines.dropWhile isInner = lines :=
    List.takeWhile_append_dropWhile
  cases hdrop : lines.dropWhile isInner with
  | nil =>
    have hnone : ∀ line ∈ lines, isMarkerLine options.lexer.marker.toList line = false := by
      simpa [isInner] using List.dropWhile_eq_nil_iff.mp hdrop
    obtain ⟨stop, hmem⟩ := lex_unclosed h hmode hmarker hfirst hnone
    rw [← hsource] at hmem
    have hd : ⟨.error, ⟨path, .start, stop⟩, LexicalProblem.markerMissing.message⟩ ∈
        (lex options.lexer source.toList).diagnostics path :=
      mem_diagnostics.mpr ⟨_, List.mem_filterMap.mpr ⟨_, hmem, rfl⟩, rfl⟩
    exact ⟨stop, hd, fun t ht => mem_diagnostics_of_parse ht hd hne⟩
  | cons closing behind =>
    have hclosing : isMarkerLine options.lexer.marker.toList closing = true := by
      have hhead := List.head?_dropWhile_not isInner lines
      rw [hdrop] at hhead
      simpa [isInner] using hhead
    have hinner : ∀ line ∈ lines.takeWhile isInner,
        isMarkerLine options.lexer.marker.toList line = false := by
      intro line hl
      simpa [isInner] using List.mem_takeWhile_imp hl
    rw [hdrop] at hsplit
    rw [← hsplit] at h hsource
    have hagrees := agrees_closed path { options with lexer.mode := .scriptOnly }
      { options with lexer.mode := .default } h hsource hmode hmarker hfirst hinner hclosing rfl rfl rfl
      rfl
    exact ⟨hagrees.isClean_iff, hagrees⟩

theorem parse_frontMatter_assignment :
    Agrees 3 (Template.parse { lexer := { mode := .frontMatterAndContent } } none "+++\nx = 1\n+++\nText")
      (Template.parse { lexer := { mode := .scriptOnly } } none "x = 1\n")
      (Template.parse {} none "Text") := by
  have hlines : sourceLines "+++\nx = 1\n+++\nText".toList =
      ["+++\n".toList, "x = 1\n".toList, "+++\n".toList, "Text".toList] := by decide
  have hread := parse_frontMatter { lexer := { mode := .frontMatterAndContent } } none
    "+++\nx = 1\n+++\nText" rfl (by decide) hlines (by decide)
  exact hread.2

end Template

end Stencil
