import Stencil.Proofs.Ascription
import Stencil.Proofs.Sequence

/-!
# Text behind a source

Text behind a source adds a token to those of the source, or goes on from the text at its end; all
other tokens keep their places (`Cut.trailing`). So the statements of the source are read as before,
in their places, and a text is read behind them (`Template.parse_trailing`). As a text can always be
written, what fails are the statements of the source. But the last of them hands its value up if it
is the last of the page, and if text is behind it, its value is written on the spot: where a value
cannot be written, the error is about the page in the one case and about the statement in the other
(`Template.render_trailing`).
-/

namespace Stencil

open Eval Grammar

/-! ## Tokens -/

/-- Tokens, and those with text behind them: one text more, or another one at the end. -/
inductive Trails : List Token → List Token → Prop
  | behind (ts : List Token) {t : Token} : t.kind = .text → Trails ts (ts ++ [t])
  | longer (ts : List Token) {t t' : Token} : t.kind = .text → t'.kind = .text →
      Trails (ts ++ [t]) (ts ++ [t'])

theorem Trails.append {ts us : List Token} (h : Trails ts us) (front : List Token) :
    Trails (front ++ ts) (front ++ us) := by
  cases h with
  | behind _ ht =>
    rw [← List.append_assoc]
    exact .behind _ ht
  | longer ts ht ht' =>
    rw [← List.append_assoc, ← List.append_assoc]
    exact .longer _ ht ht'

/-- What is put down in both cases stands in front. -/
theorem Trails.item {items items' : List LexItem}
    (h : Trails (items.filterMap LexItem.token?) (items'.filterMap LexItem.token?)) (item : LexItem) :
    Trails ((item :: items).filterMap LexItem.token?) ((item :: items').filterMap LexItem.token?) := by
  cases hitem : item.token? with
  | none => rwa [List.filterMap_cons_none hitem, List.filterMap_cons_none hitem]
  | some t =>
    rw [List.filterMap_cons_some hitem, List.filterMap_cons_some hitem]
    exact h.append [t]

variable {options : LexerOptions} {text : List Char}

theorem lexFrom_text_all (htext : text ≠ []) (h : beforePair '\x7b' text = text) (p : Position) :
    (lexFrom options .text p text).items = [.piece ⟨spelled .text text, text, p⟩] := by
  have hall : lexFrom options .text p (text ++ []) = _ :=
    lexFrom_text htext (by rwa [List.append_nil]) p
  rw [List.append_nil, lexFrom_nil] at hall
  rw [hall]
  rfl

/-- Behind a source that leaves no code open, text is one token, or part of the last one. -/
theorem Cut.trailing (options : LexerOptions) {code : Bool} {cs : List Char} {atoms : List Atom}
    (h : Cut code cs atoms)
    (htext : text ≠ []) (hbrace : '\x7b' ∉ text) (opened p : Position) :
    Trails ((lexFrom options (sectionOf code opened) p cs).items.filterMap LexItem.token?)
      ((lexFrom options (sectionOf code opened) p (cs ++ text)).items.filterMap LexItem.token?) := by
  have hseam (cs : List Char) : ¬ (cs.getLast? = some '\x7b' ∧ text.head? = some '\x7b') :=
    fun h => hbrace (List.mem_of_mem_head? h.2)
  induction h generalizing opened p with
  | nil =>
    show Trails ((lexFrom options .text p []).items.filterMap _)
      ((lexFrom options .text p text).items.filterMap _)
    rw [lexFrom_nil, lexFrom_text_all htext (beforePair_of_not_mem hbrace)]
    exact .behind [] rfl
  | @text front cs atoms hfront hbefore h ih =>
    show Trails ((lexFrom options .text p (front ++ cs)).items.filterMap _)
      ((lexFrom options .text p (front ++ cs ++ text)).items.filterMap _)
    cases hcs : cs with
    | nil =>
      rw [hcs, List.append_nil] at hbefore
      have hboth : beforePair '\x7b' (front ++ text) = front ++ text := by
        rw [beforePair_append_of_eq hbefore (hseam front), beforePair_of_not_mem hbrace]
      rw [List.append_nil, lexFrom_text_all hfront hbefore,
        lexFrom_text_all (List.append_ne_nil_of_left_ne_nil hfront text) hboth]
      exact .longer [] rfl rfl
    | cons d rest =>
      have hne : cs ≠ [] := hcs ▸ List.cons_ne_nil d rest
      rw [← hcs, lexFrom_text hfront hbefore, List.append_assoc,
        lexFrom_text hfront (beforePair_in_front hbefore hne text)]
      exact (ih opened _).item _
  | enter h ih =>
    show Trails ((lexFrom options .text p _).items.filterMap _)
      ((lexFrom options .text p _).items.filterMap _)
    rw [List.cons_append, List.cons_append, lexFrom_enter, lexFrom_enter]
    exact (ih p _).item _
  | @piece c lexeme cs kind atoms hexit hscan hflaw h ih =>
    show Trails ((lexFrom options (.code opened) p _).items.filterMap _)
      ((lexFrom options (.code opened) p _).items.filterMap _)
    obtain ⟨hhead, hscan'⟩ := h.piece_append hscan hflaw text
    rw [List.cons_append, List.append_assoc, lexFrom_piece hexit hscan,
      lexFrom_piece (by rwa [hhead]) hscan', List.take_left, List.take_left, List.drop_left,
      List.drop_left]
    exact (ih opened _).item _
  | exit h ih =>
    show Trails ((lexFrom options (.code opened) p _).items.filterMap _)
      ((lexFrom options (.code opened) p _).items.filterMap _)
    rw [List.cons_append, List.cons_append, lexFrom_exit, lexFrom_exit]
    exact (ih opened _).item _

/-! ## Statements -/

/-- Statements, and those with text behind them: one text more, or another one at the end. -/
inductive NodesTrail : List Node → List Node → Prop
  | behind (nodes : List Node) (span : Span) (value : String) (id : Nat) :
      NodesTrail nodes (nodes ++ [.text span value id])
  | longer (nodes : List Node) (span span' : Span) (value value' : String) (id id' : Nat) :
      NodesTrail (nodes ++ [.text span value id]) (nodes ++ [.text span' value' id'])

/-- A text at the end of a source is a statement. -/
theorem readsAll_text {o : Options} {n : Nat} {e : Cursor} {u t : Token} (he : e.rest = [u, t])
    (hu : u.kind = .text) (ht : t.kind = .eof) (hn : [u, t].length ≤ n) :
    ReadsAll o n e [.text ((e.behind u [t]).spanFrom o u) u.value] := by
  obtain ⟨m, rfl⟩ := Nat.exists_eq_add_one_of_ne_zero (Nat.ne_zero_of_lt hn)
  exact .text he hu (.nil (Nat.le_of_succ_le_succ hn) rfl ht)

/-- The statements of a source are read in their places when text is behind it. -/
theorem Grammar.IsSource.trailing {o : Options} {ts₁ ts : List Token} {t₁ t : Token} {nodes₁ : List Node}
    (h₁ : IsSource ts₁ t₁) (ht : t.kind = .eof) (htrails : Trails ts₁ ts) {n₁ n : Nat}
    (hread₁ : ReadsAll o n₁ { rest := ts₁ ++ [t₁] } nodes₁) (hn : (ts ++ [t]).length ≤ n) :
    ∃ nodes, ReadsAll o n { rest := ts ++ [t] } nodes ∧ NodesTrail nodes₁ nodes := by
  have hsame (us : List Token) : List.Forall₂ (SameToken True) us us := List.forall₂_refl us
  cases htrails with
  | @behind _ u hu =>
    have hc : ({ rest := ts₁ ++ [u] ++ [t] } : Cursor).rest = ts₁ ++ [u, t] := List.append_assoc ts₁ [u] [t]
    obtain ⟨A, m, e, hA, he, hm, hall⟩ := h₁.toEnd hread₁ rfl (List.suffix_refl _) hc (hsame ts₁)
      (fun _ => rfl) hn
    obtain rfl := hA.eq trivial
    exact ⟨_, hall _ (readsAll_text he hu ht hm), .behind _ _ _ _⟩
  | @longer us u u' hu hu' =>
    have hc : ({ rest := us ++ [u'] ++ [t] } : Cursor).rest = us ++ [u', t] := List.append_assoc us [u'] [t]
    obtain ⟨A, A', B, m, e, m', e', rfl, hA, hB, he, he', hm', hall⟩ :=
      h₁.seam [u] hread₁ (List.append_assoc us [u] [t₁]) (List.suffix_refl _)
        (fun v hv => by rwa [List.mem_singleton.mp hv]) hc (hsame us) (fun _ => rfl) hn
    obtain rfl := hA.eq trivial
    obtain ⟨k, none, rfl, hnone, rfl⟩ := hB.text_inv he hu
    obtain rfl := hnone.eq_nil rfl h₁.stop
    exact ⟨_, hall _ (readsAll_text he' hu' ht hm'), .longer _ _ _ _ _ _ _⟩

/-- A text by itself. -/
theorem cut_text {text : String} (htext : text ≠ "") (hbrace : '\x7b' ∉ text.toList) :
    Cut false text.toList [⟨.text, text⟩] := by
  have hcut : Cut false (text.toList ++ []) [⟨.text, String.ofList text.toList⟩] :=
    .text (mt String.toList_eq_nil_iff.mp htext) (by rw [List.append_nil, beforePair_of_not_mem hbrace]) .nil
  rwa [List.append_nil, String.ofList_toList] at hcut

/-- A source with text behind it is read without a complaint. -/
theorem Template.parse_trailing {options : TemplateOptions} {path : Option String} {source text : String}
    {t₁ : Template} (hmode : options.lexer.mode = .default) (hsource : source ≠ "")
    (h₁ : Template.parse options path source = .ok t₁) (hclean₁ : t₁.diagnostics = [])
    (htext : text ≠ "") (hbrace : '\x7b' ∉ text.toList) :
    ∃ t nodes₁ nodes, Template.parse options path (source ++ text) = .ok t ∧ t₁.IsRow path nodes₁ ∧
      t.IsRow path nodes ∧ NodesTrail nodes₁ nodes := by
  have hne : text.toList ≠ [] := mt String.toList_eq_nil_iff.mp htext
  obtain ⟨ts₁, p₁, nodes₁, htokens₁, hcut₁, hrow₁, hread₁⟩ := parse_inv hmode hsource h₁ hclean₁
  obtain ⟨atoms, -, hcut⟩ := hcut₁.append (cut_text htext hbrace) fun h =>
    hbrace (List.mem_of_mem_head? h.2)
  have htrails := hcut₁.trailing options.lexer hne hbrace .start .start
  rw [← String.toList_append] at hcut htrails
  obtain ⟨ts, p, htokens, -, h, hparse⟩ :=
    parse_of_cut path hmode (fun h => hsource (String.append_eq_empty_iff.mp h).1) hcut
  rw [lex_default hmode] at htokens₁ htokens
  obtain ⟨hts₁, -⟩ := List.append_inj' htokens₁ rfl
  obtain ⟨hts, -⟩ := List.append_inj' htokens rfl
  have htrails : Trails ts₁ ts := hts₁ ▸ hts ▸ htrails
  obtain ⟨nodes, hread, htrail⟩ := IsSource.trailing ⟨⟨_, hcut₁⟩, rfl⟩ h.stop htrails hread₁ (Nat.le_succ _)
  obtain ⟨t, ht, hrow⟩ := hparse nodes hread
  exact ⟨t, nodes₁, nodes, ht, hrow₁, hrow, htrail⟩

theorem numberedNodes_text (span : Span) (value : String) (id n : Nat) :
    ∃ id', (numberedNodes [.text span value id] n).1 = [.text span value id'] := by
  rw [numberedNodes, Node.numbered]
  split
  · exact ⟨_, rfl⟩
  · exact ⟨_, rfl⟩

/-- The literals of the statements keep their numbers. -/
theorem NodesTrail.numbered {as bs : List Node} (h : NodesTrail as bs) (n : Nat) :
    NodesTrail (numberedNodes as n).1 (numberedNodes bs n).1 := by
  cases h with
  | behind _ span value id =>
    obtain ⟨id', hid⟩ := numberedNodes_text span value id (numberedNodes as n).2
    rw [numberedNodes_append, hid]
    exact .behind _ _ _ _
  | longer nodes span span' value value' id id' =>
    obtain ⟨i, hi⟩ := numberedNodes_text span value id (numberedNodes nodes n).2
    obtain ⟨j, hj⟩ := numberedNodes_text span' value' id' (numberedNodes nodes n).2
    rw [numberedNodes_append, numberedNodes_append, hi, hj]
    exact .longer _ _ _ _ _ _ _

/-! ## Runs -/

namespace Eval

variable {host : Host} {path : Option String}

/-- All statements but the last are written. -/
theorem statements_concat (run : Runner) (nodes : List Node) (last : Node) :
    statements run (nodes ++ [last]) =
      (do forM nodes fun n => do writeResult n.span? (← run.node n)
          run.node last) := by
  induction nodes with
  | nil => exact (pure_bind _ _).symm
  | cons n rest ih =>
    have hstep : statements run (n :: (rest ++ [last])) =
        (do writeResult n.span? (← run.node n); statements run (rest ++ [last])) := by
      cases rest <;> rfl
    rw [List.cons_append, hstep, ih, List.forM_cons]
    simp only [bind_assoc]

/-- Behind the last statement its value is written. -/
theorem statements_behind (run : Runner) (nodes : List Node) (last text : Node) :
    statements run (nodes ++ [last] ++ [text]) =
      (do let v ← statements run (nodes ++ [last])
          writeResult last.span? v
          run.node text) := by
  rw [statements_concat, statements_concat, List.forM_append, List.forM_cons]
  simp only [List.forM_nil, bind_assoc, pure_bind]

theorem within_pure (v : Value) (s : State) : within path (pure v) s = .ok v s := by
  cases path <;> rfl

theorem within_throw (x : Failure) (s : State) : (within path (throw x) : Eval Value) s = .error x s := by
  cases path <;> rfl

/-- A page runs its statements in its file. -/
theorem runPage_row {t : Template} {span inner : Span} {nodes : List Node} (hpath : t.path = path)
    (hpage : t.page = some ⟨span, .block inner nodes, .absent⟩) (fuel : Nat) :
    runPage (evaluate host (fuel + 2)) t =
      within path (statements ⟨evaluate host fuel, renderWith (evaluate host fuel)⟩ nodes) := by
  rw [runPage, hpage, hpath]
  rfl

theorem render_row {t : Template} {span inner : Span} {nodes : List Node} (hclean : t.diagnostics = [])
    (hpage : t.page = some ⟨span, .block inner nodes, .absent⟩) (fuel : Nat) :
    render host fuel t = (do writeResult (some span) (← runPage (evaluate host fuel) t)) := by
  have hcheck : checkErrors t = pure () := by
    rw [checkErrors, Template.hasErrors, hclean]
    rfl
  have hwrite : writePage t = writeResult (some span) := by
    funext v
    rw [writePage, hpage]
  rw [render, renderWith, hcheck, hwrite, pure_bind]

/-- Where it fails that a value has no text depends on the place that it is written at, if the value
does not say by itself why it has none. -/
theorem conversionFailure_script {c : Context} {span : Option Span} {v : Value} {f : Fault}
    {e : ScriptError} (h : conversionFailure c span v f = .script e) (c' : Context) (span' : Option Span) :
    ∃ e', conversionFailure c' span' v f = .script e' ∧ e'.cause = e.cause ∧
      (e'.span = e.span ∨ e.span = c.locate span ∧ e'.span = c'.locate span') := by
  cases f with
  | refused reason => exact ⟨e, h, rfl, .inl rfl⟩
  | _ =>
    cases h
    exact ⟨_, rfl, rfl, .inr ⟨rfl, rfl⟩⟩

theorem writeResult_error {span : Option Span} {v : Value} {s t : State} {x : Failure}
    (h : writeResult span v s = .error x t) :
    t = s ∧ ∃ f, s.written v = .error f ∧ conversionFailure s.context span v f = x := by
  rw [writeResult_run] at h
  split at h
  · cases h
  · next f hf =>
    cases h
    exact ⟨rfl, f, hf, rfl⟩

theorem writeResult_of_error {v : Value} {s : State} {f : Fault} (h : s.written v = .error f)
    (span : Option Span) : writeResult span v s = .error (conversionFailure s.context span v f) s := by
  rw [writeResult_run, h]

theorem written_of_inFiles {s : State} {files : List String} {v : Value} {f : Fault}
    (h : (s.inFiles files).written v = .error f) : s.written v = .error f := by
  rw [State.written_inFiles] at h
  cases hs : s.written v with
  | ok t =>
    rw [hs] at h
    cases h
  | error f' =>
    rw [hs] at h
    cases h
    rfl

/-- The state in which a file was entered, if there is one. -/
def entered (path : Option String) (s : State) : State :=
  s.inFiles (path.toList ++ s.context.sourceFiles)

/-- A file is left, whatever was evaluated there; or it cannot be left, and then that is the failure. -/
theorem within_leaves (path : Option String) (s t : State) :
    (∃ files, (path = none → t.inFiles files = t) ∧ ∀ body : Eval Value,
      (∀ v, body (entered path s) = .ok v t → within path body s = .ok v (t.inFiles files)) ∧
      ∀ x, body (entered path s) = .error x t → within path body s = .error x (t.inFiles files)) ∨
    ∃ y, ∀ (body : Eval Value) u, u.context.sourceFiles = t.context.sourceFiles →
      (∀ v, body (entered path s) = .ok v u → within path body s = .error y u) ∧
      ∀ x, body (entered path s) = .error x u → within path body s = .error y u := by
  cases path with
  | none => exact .inl ⟨t.context.sourceFiles, fun _ => rfl, fun body => ⟨fun v h => h, fun x h => h⟩⟩
  | some file =>
    have hwithin (body : Eval Value) : within (some file) body s =
      ensuring body (do let _ ← popSourceFile) (entered (some file) s) := rfl
    cases ht : t.context.sourceFiles with
    | nil =>
      refine .inr ⟨.script { cause := .unmatchedPop .sourceFiles }, fun body u hu => ?_⟩
      have hpop : (do let _ ← popSourceFile : Eval Unit) u = _ := bind_of_error (popSourceFile_run_nil hu)
      refine ⟨fun v h => ?_, fun x h => ?_⟩ <;> simp only [hwithin, ensuring, h, hpop]
    | cons name below =>
      refine .inl ⟨below, fun hnone => absurd hnone (Option.some_ne_none file), fun body => ?_⟩
      have hpop : (do let _ ← popSourceFile : Eval Unit) t = .ok () (t.inFiles below) := by
        rw [bind_of_ok (popSourceFile_run ht), pure_run]
        rfl
      refine ⟨fun v h => ?_, fun x h => ?_⟩ <;> simp only [hwithin, ensuring, h, hpop]

/-- What fails in a file fails alike behind it. -/
theorem within_error (path : Option String) {body body' : Eval Value} {s t : State} {x : Failure}
    (h : body (entered path s) = .error x t) (h' : body' (entered path s) = .error x t) :
    ∃ y u, within path body s = .error y u ∧ within path body' s = .error y u := by
  obtain ⟨files, -, hleave⟩ | ⟨y, hstay⟩ := within_leaves path s t
  · exact ⟨x, _, (hleave body).2 x h, (hleave body').2 x h'⟩
  · exact ⟨y, t, (hstay body t rfl).2 x h, (hstay body' t rfl).2 x h'⟩

theorem locate_within {span : Option Span} (h : ∀ s, span = some s → s.file = path) {t t' : State}
    (ht : path = none → t' = t) : t'.context.locate span = t.context.locate span := by
  cases span with
  | none => rfl
  | some s =>
    rw [Context.locate_some, Context.locate_some, h s rfl]
    cases path with
    | none => rw [ht rfl]
    | some file => rfl

/-- A value that is handed out of a file and written behind it, and written in the file. -/
theorem within_trailing {body more : Eval Value} {span last : Option Span} (span' : Option Span)
    (hlast : ∀ s, last = some s → s.file = path) (hmore : ∀ s, ∃ v, more s = .ok v s)
    {s s' : State} {e : ScriptError}
    (h : (do writeResult span (← within path body) : Eval Unit) s = .error (.script e) s') :
    ∃ e' s'', (do writeResult span' (← within path (do
          let v ← body
          writeResult last v
          more)) : Eval Unit) s = .error (.script e') s'' ∧ e'.cause = e.cause ∧
      (e'.span = e.span ∨ ∃ v t, within path body s = .ok v t ∧
        writeResult span v t = .error (.script e) s' ∧ e.span = t.context.locate span ∧
        e'.span = t.context.locate last) := by
  cases hbody : body (entered path s) with
  | error x t =>
    obtain ⟨y, u, hy, hy'⟩ := within_error path hbody
      (bind_of_error (f := fun v => do writeResult last v; more) hbody)
    rw [bind_of_error hy] at h
    cases h
    exact ⟨e, _, bind_of_error hy', rfl, .inl rfl⟩
  | ok v t =>
    obtain ⟨files, hnone, hleave⟩ | ⟨y, hstay⟩ := within_leaves path s t
    · have hok := (hleave body).1 v hbody
      rw [bind_of_ok hok] at h
      obtain ⟨rfl, f, hf, hx⟩ := writeResult_error h
      obtain ⟨e', he', hcause, hspan⟩ := conversionFailure_script hx t.context last
      have hwrite : (do let v ← body; writeResult last v; more : Eval Value) (entered path s) =
          .error (.script e') t := by
        rw [bind_of_ok hbody, ← he']
        exact bind_of_error (writeResult_of_error (written_of_inFiles hf) last)
      rw [← locate_within hlast hnone] at hspan
      exact ⟨e', _, bind_of_error ((hleave _).2 _ hwrite), hcause, hspan.imp_right fun hs =>
        ⟨v, _, hok, h, hs⟩⟩
    · rw [bind_of_error ((hstay body t rfl).1 v hbody)] at h
      cases h
      have hwrite : (do let v ← body; writeResult last v; more : Eval Value) (entered path s) =
          (do writeResult last v; more : Eval Value) s' := bind_of_ok hbody
      cases hw : s'.written v with
      | error f =>
        have hfail := hwrite.trans (bind_of_error (writeResult_of_error hw last))
        exact ⟨e, _, bind_of_error ((hstay _ s' rfl).2 _ hfail), rfl, .inl rfl⟩
      | ok u =>
        have hdone : writeResult last v s' = .ok () u := by rw [writeResult_run, hw]
        obtain ⟨w, hw'⟩ := hmore u
        have hreturn := hwrite.trans ((bind_of_ok hdone).trans hw')
        exact ⟨e, _, bind_of_error ((hstay _ u (State.sourceFiles_written hw)).1 w hreturn), rfl, .inl rfl⟩

theorem writeResult_text (span : Option Span) (id : Nat) (value : String) (s : State) :
    ∃ t, writeResult span (.text id value) s = .ok () t := by
  have hdisplay : s.store.display (.text id value) = .ok value := rfl
  rw [writeResult_run, State.written, hdisplay]
  cases s.context.outputEnabled <;> exact ⟨_, rfl⟩

/-- What is evaluated in front of a text, whatever the text is. -/
theorem within_text {front : Eval Unit} {last last' : Eval Value} {span : Option Span} {id : Nat}
    {value : String} (span' : Option Span) (hlast : ∀ s, last s = .ok (.text id value) s)
    (hlast' : ∀ s, ∃ v, last' s = .ok v s)
    {s s' : State} {x : Failure}
    (h : (do writeResult span (← within path (do front; last)) : Eval Unit) s = .error x s') :
    ∃ s'', (do writeResult span' (← within path (do front; last')) : Eval Unit) s = .error x s'' := by
  cases hfront : front (entered path s) with
  | error y t =>
    obtain ⟨z, u, hz, hz'⟩ := within_error path
      (bind_of_error (f := fun _ => last) hfront) (bind_of_error (f := fun _ => last') hfront)
    rw [bind_of_error hz] at h
    cases h
    exact ⟨_, bind_of_error hz'⟩
  | ok _ t =>
    have hreturn : (do front; last : Eval Value) (entered path s) = .ok (.text id value) t :=
      (bind_of_ok hfront).trans (hlast t)
    obtain ⟨files, -, hleave⟩ | ⟨y, hstay⟩ := within_leaves path s t
    · obtain ⟨u, hu⟩ := writeResult_text span id value (t.inFiles files)
      rw [bind_of_ok ((hleave _).1 _ hreturn), hu] at h
      cases h
    · rw [bind_of_error ((hstay _ t rfl).1 _ hreturn)] at h
      cases h
      obtain ⟨v, hv⟩ := hlast' s'
      exact ⟨_, bind_of_error ((hstay _ s' rfl).1 _ ((bind_of_ok hfront).trans hv))⟩

section Rows

variable {t t' : Template} {span inner span' inner' : Span} {nodes nodes' : List Node}

/-- An empty page fails with nothing, and neither does one with statements that there are no steps
left for. -/
theorem deep_of_script (hpath : t.path = path)
    (hpage : t.page = some ⟨span, .block inner nodes, .absent⟩) {fuel : Nat} {s s' : State}
    {e : ScriptError}
    (h : (do writeResult (some span) (← runPage (evaluate host fuel) t) : Eval Unit) s =
      .error (.script e) s') :
    nodes ≠ [] ∧ ∃ k, fuel = k + 3 := by
  have hthrow {body : Eval Value} (hbody : body = throw .exhausted) :
      (do writeResult (some span) (← within path body) : Eval Unit) s ≠ .error (.script e) s' := by
    rw [hbody, bind_of_error (within_throw _ s)]
    exact nofun
  obtain _ | _ | fuel := fuel
  · rw [runPage, hpage, hpath] at h
    exact absurd h (hthrow rfl)
  · rw [runPage, hpage, hpath] at h
    exact absurd h (hthrow rfl)
  · rw [runPage_row hpath hpage] at h
    obtain _ | ⟨n, rest⟩ := nodes
    · rw [statements, bind_of_ok (within_pure _ s)] at h
      cases h
    · obtain _ | k := fuel
      · exact absurd h (hthrow (by cases rest <;> rfl))
      · exact ⟨List.cons_ne_nil n rest, k, rfl⟩

/-- A page with text behind it fails with what it fails with by itself. Where that is the value of the
last statement, the statement is blamed instead of the page. -/
theorem render_row_trailing (hpath : t.path = path) (hclean : t.diagnostics = [])
    (hpage : t.page = some ⟨span, .block inner nodes, .absent⟩) (hpath' : t'.path = path)
    (hclean' : t'.diagnostics = []) (hpage' : t'.page = some ⟨span', .block inner' nodes', .absent⟩)
    (htrail : NodesTrail nodes nodes') (hfile : ∀ n ∈ nodes, ∀ s, n.span? = some s → s.file = path)
    {fuel : Nat} {s s' : State} {e : ScriptError} (h : render host fuel t s = .error (.script e) s') :
    ∃ e' s'', render host fuel t' s = .error (.script e') s'' ∧ e'.cause = e.cause ∧
      (e'.span = e.span ∨ ∃ front last v u, nodes = front ++ [last] ∧
        runPage (evaluate host fuel) t s = .ok v u ∧
        writeResult (some span) v u = .error (.script e) s' ∧
        e.span = u.context.locate (some span) ∧ e'.span = u.context.locate last.span?) := by
  rw [render_row hclean hpage] at h
  obtain ⟨hne, k, rfl⟩ := deep_of_script hpath hpage h
  rw [runPage_row hpath hpage] at h
  rw [render_row hclean' hpage', runPage_row hpath' hpage', runPage_row hpath hpage]
  have htext (place : Span) (value : String) (id : Nat) (s : State) :
      ∃ v, evaluate host (k + 1) (.text place value id) s = .ok v s := ⟨_, rfl⟩
  cases htrail with
  | behind _ place value id =>
    obtain ⟨front, last, rfl⟩ := (List.eq_nil_or_concat' nodes).resolve_left hne
    obtain ⟨e', s'', hrender, hcause, hspan⟩ := within_trailing (some span')
      (hfile last (List.mem_append_right _ List.mem_cons_self)) (htext place value id) h
    rw [statements_behind]
    refine ⟨e', s'', hrender, hcause, hspan.imp_right ?_⟩
    rintro ⟨v, u, hrun, hwrite, hpageSpan, hlastSpan⟩
    exact ⟨front, last, v, u, rfl, hrun, hwrite, hpageSpan, hlastSpan⟩
  | longer front place place' value value' id id' =>
    have hwritten (s : State) :
        evaluate host (k + 1) (.text place value id) s = .ok (.text id value) s := rfl
    rw [statements_concat] at h
    rw [statements_concat]
    obtain ⟨s'', hrender⟩ := within_text (some span') hwritten
      (htext place' value' id') h
    exact ⟨e, s'', hrender, rfl, .inl rfl⟩

end Rows

end Eval

/-! ## Templates -/

theorem Template.page_numbered {t : Template} {span inner : Span} {nodes : List Node}
    (h : t.page = some ⟨span, .block inner nodes, .absent⟩) (n : Nat) :
    (t.numbered n).1.page = some ⟨span, .block inner (numberedNodes nodes n).1, .absent⟩ := by
  obtain ⟨page, path, diagnostics, source⟩ := t
  obtain rfl : page = _ := h
  rfl

theorem spans_numberedNodes (nodes : List Node) (n : Nat) :
    (numberedNodes nodes n).1.map Node.span? = nodes.map Node.span? := by
  induction nodes generalizing n with
  | nil => rfl
  | cons node rest ih =>
    show (node.numbered n).1.span? :: (numberedNodes rest (node.numbered n).2).1.map Node.span? = _
    rw [node.span?_numbered, ih, List.map_cons]

section Sources

variable {options : TemplateOptions} {path : Option String} {source text : String}

/-- A text is read without a complaint. -/
theorem Template.parse_text (path : Option String) (hmode : options.lexer.mode = .default)
    (htext : text ≠ "") (hbrace : '\x7b' ∉ text.toList) :
    ∃ t, Template.parse options path text = .ok t ∧ t.diagnostics = [] := by
  obtain ⟨ts, p, -, hatoms, h, hparse⟩ :=
    parse_of_cut path hmode htext (cut_text htext hbrace)
  obtain ⟨u, none, rfl, hu, hnone⟩ := List.map_eq_cons_iff.mp hatoms
  obtain rfl := List.map_eq_nil_iff.mp hnone
  obtain ⟨t, ht, hrow⟩ := hparse _ (readsAll_text rfl (congrArg Atom.kind hu) h.stop (Nat.le_succ _))
  exact ⟨t, ht, hrow.clean⟩

/-- Text behind a template without a complaint does not keep it from being run, and if the template fails
with a script error by itself, it fails with text behind it: with the same error, in the same place. But
where the page comes to a value that cannot be written, the place is the page without the text and its
last statement with it. -/
theorem Template.render_trailing {t₁ : Template} (hmode : options.lexer.mode = .default)
    (h₁ : Template.parse options path source = .ok t₁) (hclean₁ : t₁.diagnostics = [])
    (htext : text ≠ "") (hbrace : '\x7b' ∉ text.toList) :
    ∃ t, Template.parse options path (source ++ text) = .ok t ∧ t.diagnostics = [] ∧
      ∀ (id : Nat) (host : Host) fuel s e s',
        render host fuel (LoadedTemplate.numbered ⟨id, t₁⟩) s = .error (.script e) s' →
        ∃ e' s'', render host fuel (LoadedTemplate.numbered ⟨id, t⟩) s = .error (.script e') s'' ∧
          e'.cause = e.cause ∧
          (e'.span = e.span ∨ ∃ page inner front last v u,
            t₁.page = some page ∧ page.body = .block inner (front ++ [last]) ∧
            runPage (evaluate host fuel) (LoadedTemplate.numbered ⟨id, t₁⟩) s = .ok v u ∧
            writeResult (some page.span) v u = .error (.script e) s' ∧
            e.span = u.context.locate (some page.span) ∧ e'.span = u.context.locate last.span?) := by
  by_cases hsource : source = ""
  · subst hsource
    obtain rfl : { path } = t₁ := Except.ok.inj h₁
    obtain ⟨t, ht, hclean⟩ := Template.parse_text path hmode htext hbrace
    exact ⟨t, String.empty_append.symm ▸ ht, hclean, fun id host fuel s e s' h => nomatch h⟩
  obtain ⟨t, nodes₁, nodes, ht, hrow₁, hrow, htrail⟩ :=
    Template.parse_trailing hmode hsource h₁ hclean₁ htext hbrace
  refine ⟨t, ht, hrow.clean, fun id host fuel s e s' h => ?_⟩
  obtain ⟨span, inner, hpage₁⟩ := hrow₁.page
  obtain ⟨span', inner', hpage⟩ := hrow.page
  have hlies := Template.liesIn_of_parse h₁ hclean₁ hpage₁
  have hfile : ∀ n ∈ (numberedNodes nodes₁ (id + 1)).1, ∀ s, n.span? = some s → s.file = path := by
    intro n hn s hs
    obtain ⟨m, hm, j, rfl⟩ := mem_of_forall₂ (numberedNodes_forall₂ nodes₁ (id + 1)) hn
    rw [m.span?_numbered] at hs
    exact ((hlies.child (m := .block inner nodes₁) List.mem_cons_self).child hm).here s hs
  obtain ⟨e', s'', hrender, hcause, hspan⟩ := Eval.render_row_trailing
    (hrow₁.numbered (id + 1)).path (hrow₁.numbered (id + 1)).clean (page_numbered hpage₁ (id + 1))
    (hrow.numbered (id + 1)).path (hrow.numbered (id + 1)).clean (page_numbered hpage (id + 1))
    (htrail.numbered (id + 1)) hfile h
  refine ⟨e', s'', hrender, hcause, hspan.imp_right ?_⟩
  rintro ⟨front, last, v, u, hnodes, hrun, hwrite, hpageSpan, hlastSpan⟩
  have hspans := spans_numberedNodes nodes₁ (id + 1)
  rw [hnodes, List.map_append] at hspans
  obtain ⟨front₁, lasts, rfl, -, hlasts⟩ := List.map_eq_append_iff.mp hspans.symm
  obtain ⟨last₁, none, rfl, hlast, hnone⟩ := List.map_eq_cons_iff.mp hlasts
  obtain rfl := List.map_eq_nil_iff.mp hnone
  exact ⟨_, inner, front₁, last₁, v, u, hpage₁, rfl, hrun, hwrite, hpageSpan, hlast ▸ hlastSpan⟩

end Sources

/-- The script error of a run that fails with one. -/
def scriptError? {α : Type} : EStateM.Result Failure State α → Option ScriptError
  | .error (.script e) _ => some e
  | _ => none

theorem eq_of_scriptError? {α : Type} {r : EStateM.Result Failure State α} {e : ScriptError}
    (h : scriptError? r = some e) : ∃ s, r = .error (.script e) s := by
  unfold scriptError? at h
  split at h
  · cases h
    exact ⟨_, rfl⟩
  · cases h

/-- A value that cannot be written, in front of a text that goes on. -/
theorem Template.render_trailing_longer :
    let source := "\x7b\x7b u \x7d\x7dx"
    let t₁ := (Template.parse {} (some "page") source).toOption.getD {}
    let s : State := { context := { scopes := [⟨5, [("u", .unprintable 0 "U" (.host "no text"))]⟩] } }
    let e : ScriptError := ⟨.cannotConvert "U" "no text", some ⟨some "page", ⟨1, 3⟩, ⟨1, 4⟩⟩⟩
    Template.parse {} (some "page") source = .ok t₁ ∧ t₁.diagnostics = [] ∧ '\x7b' ∉ "y".toList ∧
      ∃ s' t e' s'', render quietHost 20 (LoadedTemplate.numbered ⟨8, t₁⟩) s = .error (.script e) s' ∧
        Template.parse {} (some "page") (source ++ "y") = .ok t ∧
        render quietHost 20 (LoadedTemplate.numbered ⟨8, t⟩) s = .error (.script e') s'' ∧
        e'.cause = e.cause ∧ e'.span = e.span := by
  intro source t₁ s e
  have h₁ : Template.parse {} (some "page") source = .ok t₁ := Template.parse_of_toBool (by decide +kernel)
  have hclean₁ : t₁.diagnostics = [] := List.isEmpty_iff.mp (by decide +kernel)
  have hbrace : '\x7b' ∉ "y".toList := by decide
  obtain ⟨t, ht, -, hrender⟩ := Template.render_trailing rfl h₁ hclean₁ (by decide) hbrace
  have hrun : (scriptError? (runPage (evaluate quietHost 20) (LoadedTemplate.numbered ⟨8, t₁⟩) s)).isSome :=
    by decide +kernel
  obtain ⟨s', hs'⟩ : ∃ s', render quietHost 20 (LoadedTemplate.numbered ⟨8, t₁⟩) s = .error (.script e) s' :=
    eq_of_scriptError? (by decide +kernel)
  obtain ⟨e', s'', he', hcause, hspan | ⟨_, _, _, _, v, u, _, _, hok, _⟩⟩ := hrender 8 quietHost 20 s e s' hs'
  · exact ⟨h₁, hclean₁, hbrace, s', t, e', s'', hs', ht, he', hcause, hspan⟩
  · rw [hok] at hrun
    cases hrun

/-- Text behind the last statement may move an error. -/
theorem Template.not_render_trailing :
    ¬ ∀ (options : TemplateOptions) (path : Option String) (source text : String) (t₁ t : Template),
      options.lexer.mode = .default → Template.parse options path source = .ok t₁ →
      t₁.diagnostics = [] → text ≠ "" → '\x7b' ∉ text.toList →
      Template.parse options path (source ++ text) = .ok t →
      ∀ (id : Nat) (host : Host) fuel s e s',
        render host fuel (LoadedTemplate.numbered ⟨id, t₁⟩) s = .error (.script e) s' →
        ∃ e' s'', render host fuel (LoadedTemplate.numbered ⟨id, t⟩) s = .error (.script e') s'' ∧
          e'.cause = e.cause ∧ e'.span = e.span := by
  intro h
  let source := "x\x7b\x7b u \x7d\x7d"
  let read (source : String) : Template := (Template.parse {} (some "page") source).toOption.getD {}
  let s : State := { context := { scopes := [⟨5, [("u", .unprintable 0 "U" (.host "no text"))]⟩] } }
  let blamed (span : Span) : ScriptError := ⟨.cannotConvert "U" "no text", some span⟩
  have hread (source : String) (hread : (Template.parse {} (some "page") source).toBool = true) :
      Template.parse {} (some "page") source = .ok (read source) := Template.parse_of_toBool hread
  obtain ⟨s', hs'⟩ : ∃ s', render quietHost 20 (LoadedTemplate.numbered ⟨8, read source⟩) s =
      .error (.script (blamed ⟨some "page", ⟨1, 0⟩, ⟨1, 8⟩⟩)) s' := eq_of_scriptError? (by decide +kernel)
  have hmoved : scriptError? (render quietHost 20 (LoadedTemplate.numbered ⟨8, read (source ++ "y")⟩) s) =
      some (blamed ⟨some "page", ⟨1, 4⟩, ⟨1, 5⟩⟩) := by decide +kernel
  obtain ⟨e', s'', he', -, hspan⟩ := h {} (some "page") source "y" _ _ rfl
    (hread source (by decide +kernel)) (List.isEmpty_iff.mp (by decide +kernel)) (by decide) (by decide)
    (hread _ (by decide +kernel)) 8 quietHost 20 s _ s' hs'
  rw [he'] at hmoved
  obtain rfl := Option.some.inj hmoved
  exact absurd hspan (by decide)

end Stencil
