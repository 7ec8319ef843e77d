import Mathlib.Data.List.Forall2
import Stencil.ScriptError
import Stencil.Snippet

/-!
# Colours and content

Colours are escape sequences between the pieces of a text, and `Terminal.strip` takes them out
again. `Fades coloured plain` says that what is left of the one is the other, whatever stands
behind: texts that fade can be put one behind the other (`Fades.append`, `Fades.intercalate`). A
sequence leaves nothing (`stripChars_sequence`), since its final ends it, and a text that starts no
sequence stays, so that colouring such a text fades to the text (`fades_colorize`), even if it goes
on like a sequence. The reports for a terminal are put together from such pieces, and
`strip_coloured` says of all of them that colours do not change what is said.
-/

namespace Stencil

namespace Terminal

/-! ## Characters that a text lacks -/

section Lacking

variable {c : Char}

theorem not_mem_append {s t : String} (hs : c ∉ s.toList) (ht : c ∉ t.toList) :
    c ∉ (s ++ t).toList := by
  rw [String.toList_append, List.mem_append]
  exact not_or.mpr ⟨hs, ht⟩

/-- A number is written with digits and perhaps a minus sign. -/
theorem not_mem_toString (hdigit : c.isDigit = false) (hminus : c ≠ '-') (n : Int) :
    c ∉ (toString n).toList := by
  have hnat (n : Nat) : c ∉ n.repr.toList := by
    intro h
    rw [Nat.toList_repr] at h
    exact absurd (Nat.isDigit_of_mem_toDigits (by decide) (by decide) h) (Bool.eq_false_iff.mp hdigit)
  rw [Int.toString_eq_repr, Int.repr_eq_if]
  split
  · exact hnat _
  · refine not_mem_append ?_ (hnat _)
    rintro (_ | ⟨-, h⟩)
    · exact hminus rfl
    · cases h

/-- The number of a line may have blanks in front. -/
theorem not_mem_lineNumber (hdigit : c.isDigit = false) (hminus : c ≠ '-') (hblank : c ≠ ' ')
    (n : Int) : c ∉ (lineNumber n).toList := by
  refine not_mem_append ?_ (not_mem_toString hdigit hminus n)
  rw [String.toList_ofList, List.mem_replicate]
  exact fun h => hblank h.2

end Lacking

/-! ## What fades -/

/-- A text that starts no escape sequence. -/
def Unescaped (text : String) : Prop := escape ∉ text.toList

instance : DecidablePred Unescaped := fun text => inferInstanceAs (Decidable (escape ∉ text.toList))

theorem Unescaped.append {s t : String} (hs : Unescaped s) (ht : Unescaped t) :
    Unescaped (s ++ t) := not_mem_append hs ht

/-- Stripping the coloured text leaves the plain one, in front of whatever is left of the rest. -/
def Fades (coloured plain : String) : Prop :=
  ∀ rest, stripChars (coloured.toList ++ rest) = plain.toList ++ stripChars rest

theorem stripChars_escape {cs rest : List Char} (h : afterSequence? cs = some rest) :
    stripChars (escape :: cs) = stripChars rest := by
  rw [stripChars, if_pos rfl]
  split
  · next heq =>
    obtain rfl := Option.some.inj (heq.symm.trans h)
    rfl
  · next heq => cases heq.symm.trans h

/-- Characters that start no sequence stay. -/
theorem stripChars_append {cs : List Char} (h : escape ∉ cs) (rest : List Char) :
    stripChars (cs ++ rest) = cs ++ stripChars rest := by
  induction cs with
  | nil => rfl
  | cons c cs ih =>
    rw [List.mem_cons, not_or] at h
    rw [List.cons_append, stripChars, if_neg (Ne.symm h.1), ih h.2, List.cons_append]

/-- A sequence is taken out whole, and nothing behind it is. -/
theorem stripChars_sequence (s : Style) (rest : List Char) :
    stripChars (s.sequence.toList ++ rest) = stripChars rest := by
  obtain ⟨cs, hcs, hafter⟩ : ∃ cs, s.sequence.toList = escape :: cs ∧
      afterSequence? (cs ++ rest) = some rest := by
    cases s <;> exact ⟨_, rfl, rfl⟩
  rw [hcs]
  exact stripChars_escape hafter

theorem stripChars_sequences (styles : List Style) (rest : List Char) :
    stripChars ((String.join (styles.map Style.sequence)).toList ++ rest) = stripChars rest := by
  induction styles with
  | nil => rfl
  | cons s styles ih =>
    rw [String.toList_join] at ih ⊢
    rw [List.map_cons, List.flatMap_cons, List.append_assoc, stripChars_sequence, ih]

namespace Fades

variable {coloured coloured' plain plain' : String}

/-- What is left in the end. -/
theorem strip_eq (h : Fades coloured plain) : strip coloured = plain := by
  have hall := h []
  rw [List.append_nil] at hall
  rw [strip, hall, stripChars, List.append_nil, String.ofList_toList]

theorem append (h : Fades coloured plain) (h' : Fades coloured' plain') :
    Fades (coloured ++ coloured') (plain ++ plain') := by
  intro rest
  rw [String.toList_append, List.append_assoc, h, h', String.toList_append, List.append_assoc]

theorem refl {text : String} (h : Unescaped text) : Fades text text := stripChars_append h

/-- Pieces with a text between them. -/
theorem intercalate {sep : String} (hsep : Unescaped sep) {texts texts' : List String}
    (h : List.Forall₂ Fades texts texts') :
    Fades (sep.intercalate texts) (sep.intercalate texts') := by
  intro rest
  rw [String.toList_intercalate, String.toList_intercalate]
  induction h with
  | nil => rfl
  | @cons s t ss ts hs hss ih =>
    cases hss with
    | nil =>
      simp only [List.map_cons, List.map_nil, List.intercalate_singleton]
      exact hs rest
    | cons =>
      simp only [List.map_cons, List.intercalate_cons_cons, List.append_assoc] at ih ⊢
      rw [hs, refl hsep, ih]

end Fades

/-- Whatever a text goes on like, the styles around it are all that is taken out. -/
theorem fades_colorize (styles : List Style) {text : String} (h : Unescaped text) :
    Fades (colorize true styles text) (colorize false styles text) := by
  show Fades (if !styles.isEmpty then _ else text) text
  split
  · intro rest
    rw [String.toList_append, String.toList_append, List.append_assoc, List.append_assoc,
      stripChars_sequences, Fades.refl h, stripChars_sequence]
  · exact .refl h

/-! ## Numbers and places -/

theorem unescaped_toString (n : Int) : Unescaped (toString n) :=
  not_mem_toString (by decide) (by decide) n

theorem unescaped_lineNumber (n : Int) : Unescaped (lineNumber n) :=
  not_mem_lineNumber (by decide) (by decide) (by decide) n

end Terminal

open Terminal

/-- The name of the file starts no escape sequence. -/
def Span.Unescaped (s : Span) : Prop := ∀ name ∈ s.file, Terminal.Unescaped name

theorem Span.Unescaped.text {s : Span} (h : s.Unescaped) : Terminal.Unescaped s.text := by
  have hname : Terminal.Unescaped (sourceName s.file) := by
    cases hfile : s.file with
    | none => decide
    | some name =>
      rw [sourceName]
      split
      · decide
      · exact h name hfile
  have hplace : Terminal.Unescaped s.start.text :=
    .append (.append (unescaped_toString _) (by decide)) (unescaped_toString _)
  exact .append (.append (.append hname (by decide)) hplace) (by decide)

/-! ## Snippets -/

namespace Snippet

/-- The lines start no escape sequences. -/
def Unescaped (s : Snippet) : Prop := ∀ line ∈ s.lines, Terminal.Unescaped line.2

theorem fades_sourceLine (number : Int) {content : String} (h : Terminal.Unescaped content)
    (inQuestion : Bool) :
    Fades (sourceLine true number content inQuestion) (sourceLine false number content inQuestion) := by
  have hnumber : Terminal.Unescaped ((if inQuestion then ">" else " ") ++ lineNumber number) :=
    .append (by cases inQuestion <;> decide) (unescaped_lineNumber number)
  have hgutter : Fades " | " " | " := .refl (by decide)
  rw [sourceLine, sourceLine]
  cases inQuestion with
  | true => exact ((fades_colorize [.yellow] hnumber).append hgutter).append (fades_colorize [.brightRed] h)
  | false => exact ((fades_colorize [.yellow] hnumber).append hgutter).append (fades_colorize [.dim] h)

theorem fades_formatLine (s : Snippet) (number : Int) {content : String}
    (h : Terminal.Unescaped content) :
    List.Forall₂ Fades (s.formatLine true number content) (s.formatLine false number content) := by
  have hpointer (column : Int) : Terminal.Unescaped (pointer column) := by
    refine .append ?_ (by decide)
    rw [Terminal.Unescaped, String.toList_ofList, List.mem_replicate]
    exact fun h => absurd h.2 (by decide)
  refine .cons (fades_sourceLine number h _) ?_
  cases s.column with
  | none => exact .nil
  | some column =>
    dsimp only
    split
    · exact .cons (.append (fades_colorize _ (by decide)) (fades_colorize _ (hpointer column))) .nil
    · exact .nil

theorem fades_format {s : Snippet} (h : s.Unescaped) : Fades (s.format true) (s.format false) := by
  have hedge : Fades (dim true gutter) (dim false gutter) := fades_colorize _ (by decide)
  have hlines : List.Forall₂ Fades
      (s.lines.flatMap fun line => s.formatLine true line.1 line.2)
      (s.lines.flatMap fun line => s.formatLine false line.1 line.2) := by
    refine List.rel_flatMap (R := fun a b => a = b ∧ a ∈ s.lines) ?_ ?_
    · exact List.forall₂_same.mpr fun line hline => ⟨rfl, hline⟩
    · rintro line _ ⟨rfl, hline⟩
      exact s.fades_formatLine line.1 (h line hline)
  exact .intercalate (by decide) (.cons hedge (List.rel_append hlines (.cons hedge .nil)))

end Snippet

/-- Whether a snippet can be laid out is no question of colours. -/
theorem Snippet.layOut_eq_map (s : Snippet) :
    ∃ check : Except Fault Unit, ∀ colors, s.layOut colors = check.map fun _ => s.format colors := by
  unfold layOut
  cases s.pointedAt? with
  | none => exact ⟨.ok (), fun _ => rfl⟩
  | some column =>
    refine ⟨checkLength (column + 1), fun colors => ?_⟩
    dsimp only
    cases checkLength (column + 1) <;> rfl

/-- What is laid out where a check succeeds, stripped. -/
theorem map_strip {check : Except Fault Unit} {coloured plain : String} (h : strip coloured = plain) :
    (check.map fun _ => coloured).map strip = check.map fun _ => plain := by
  cases check with
  | error e => rfl
  | ok => exact congrArg Except.ok h

/-! ## Diagnostics -/

/-- The message and the name of the file start no escape sequences. -/
def Diagnostic.Unescaped (d : Diagnostic) : Prop := Terminal.Unescaped d.text ∧ d.span.Unescaped

/-- Lines of a text hold its characters. -/
theorem mem_of_mem_lines {cs line : List Char} {c : Char} (h : line ∈ Text.lines cs) (hc : c ∈ line) :
    c ∈ cs := by
  induction cs using Text.lines.induct generalizing line with
  | case1 => cases h
  | case2 rest ih =>
    rw [Text.lines, List.mem_cons] at h
    obtain rfl | h := h
    · cases hc
    · exact List.mem_cons_of_mem _ (List.mem_cons_of_mem _ (ih h hc))
  | case3 d rest hne hends ih =>
    rw [Text.lines, if_pos hends, List.mem_cons] at h
    · obtain rfl | h := h
      · cases hc
      · exact List.mem_cons_of_mem _ (ih h hc)
    · exact hne
  | case4 d rest hne hends hrest ih =>
    rw [Text.lines, if_neg hends, hrest, List.mem_singleton] at h
    · subst h
      rw [List.mem_singleton] at hc
      exact hc ▸ List.mem_cons_self
    · exact hne
  | case5 d rest hne hends first more hrest ih =>
    rw [Text.lines, if_neg hends, hrest, List.mem_cons] at h
    · obtain rfl | h := h
      · obtain rfl | hc := List.mem_cons.mp hc
        · exact List.mem_cons_self
        · exact List.mem_cons_of_mem _ (ih (hrest ▸ List.mem_cons_self) hc)
      · exact List.mem_cons_of_mem _ (ih (hrest ▸ List.mem_cons_of_mem _ h) hc)
    · exact hne

/-- The lines around a diagnostic are lines of its source. -/
theorem Diagnostic.unescaped_snippet {source : Option String} {d : Diagnostic} {s : Snippet}
    (h : ∀ text ∈ source, Terminal.Unescaped text) (hs : d.snippet? source = some s) : s.Unescaped := by
  obtain ⟨text, rfl, hs⟩ := Option.bind_eq_some_iff.mp hs
  obtain ⟨-, hs⟩ := Option.ite_none_right_eq_some.mp hs
  obtain rfl := Option.some.inj hs
  intro line hline
  obtain ⟨⟨content, i⟩, hmem, rfl⟩ := List.mem_map.mp hline
  have hcontent : content ∈ Text.linesOf text :=
    List.fst_mem_of_mem_zipIdx (List.mem_filter.mp hmem).1
  obtain ⟨chars, hchars, rfl⟩ := List.mem_map.mp hcontent
  rw [Terminal.Unescaped, String.toList_ofList]
  exact fun hc => h text rfl (mem_of_mem_lines hchars hc)

theorem Diagnostic.fades_header {d : Diagnostic} (h : d.Unescaped) :
    Fades (location true d.span.text ++ " : " ++ Terminal.severity true d.severity.text ++ " : " ++ d.text)
      (location false d.span.text ++ " : " ++ Terminal.severity false d.severity.text ++ " : " ++ d.text) := by
  have hcolon : Fades " : " " : " := .refl (by decide)
  have hplace : Fades (location true d.span.text) (location false d.span.text) :=
    fades_colorize [.cyan] h.2.text
  have hseverity :
      Fades (Terminal.severity true d.severity.text) (Terminal.severity false d.severity.text) := by
    cases d.severity with
    | error => exact fades_colorize [.brightRed, .bold] (show Terminal.Unescaped "error" by decide)
    | warning => exact fades_colorize [.brightYellow, .bold] (show Terminal.Unescaped "warning" by decide)
    | info => exact fades_colorize [.dim] (show Terminal.Unescaped "info" by decide)
  exact (((hplace.append hcolon).append hseverity).append hcolon).append (.refl h.1)

theorem Diagnostic.fades_format {source : Option String} {d : Diagnostic}
    (h : ∀ text ∈ source, Terminal.Unescaped text) (hd : d.Unescaped) :
    Fades (d.format true source) (d.format false source) := by
  dsimp only [format]
  cases hs : d.snippet? source with
  | none => exact fades_header hd
  | some s =>
    have hbreak : Fades "\n" "\n" := .refl (by decide)
    exact ((fades_header hd).append hbreak).append (Snippet.fades_format (unescaped_snippet h hs))

theorem Diagnostic.layOut_eq_map (source : Option String) (d : Diagnostic) :
    ∃ check : Except Fault Unit, ∀ colors,
      d.layOut colors source = check.map fun _ => d.format colors source := by
  unfold layOut
  cases d.snippet? source with
  | none => exact ⟨.ok (), fun _ => rfl⟩
  | some s =>
    obtain ⟨check, hcheck⟩ := s.layOut_eq_map
    refine ⟨check, fun colors => ?_⟩
    dsimp only
    rw [hcheck]
    cases check <;> rfl

/-! ## Script errors -/

/-- The message, the hint and the name of the file start no escape sequences. -/
def ScriptError.Unescaped (e : ScriptError) : Prop :=
  Terminal.Unescaped e.text ∧ (∀ hint ∈ e.cause.hint?, Terminal.Unescaped hint) ∧
    ∀ span ∈ e.span, span.Unescaped

theorem ErrorCode.unescaped_text (code : ErrorCode) : Terminal.Unescaped code.text := by
  cases code <;> decide

theorem ScriptError.fades_report {e : ScriptError} (h : e.Unescaped) :
    Fades (e.report true) (e.report false) := by
  obtain ⟨htext, hhint, hspan⟩ := h
  have harrow : Fades "  --> " "  --> " := .refl (by decide)
  unfold report
  refine .intercalate (by decide) (.cons ?header (.cons (harrow.append ?place) ?hint))
  case header =>
    refine .refl (.append ?_ htext)
    cases e.kind.code? with
    | none => decide
    | some code => exact code.unescaped_text.append (by decide)
  case place =>
    cases hs : e.span with
    | none => exact .refl (by decide)
    | some span => exact fades_colorize [.cyan] (hspan span hs).text
  case hint =>
    cases hh : e.cause.hint? with
    | none => exact .nil
    | some hint =>
      dsimp only
      split
      · exact .nil
      · have hword : Fades (Terminal.hint true "Hint:") (Terminal.hint false "Hint:") :=
          fades_colorize [.green] (by decide)
        have hblank : Fades "  " "  " := .refl (by decide)
        have hspace : Fades " " " " := .refl (by decide)
        exact .cons (((hblank.append hword).append hspace).append (.refl (hhint hint hh))) .nil

/-! ## Stripped reports -/

/-- Colours change nothing but colours: a snippet, a diagnostic with any source and a script error,
in colours and then stripped, are what they are without colours, and what cannot be laid out in
colours cannot be without them. Their texts may hold anything but the character that starts escape
sequences. -/
theorem strip_coloured :
    (∀ s : Snippet, s.Unescaped →
      strip (s.format true) = s.format false ∧ (s.layOut true).map strip = s.layOut false) ∧
    (∀ (source : Option String) (d : Diagnostic),
      (∀ text ∈ source, Terminal.Unescaped text) → d.Unescaped →
        strip (d.format true source) = d.format false source ∧
          (d.layOut true source).map strip = d.layOut false source) ∧
    ∀ e : ScriptError, e.Unescaped → strip (e.report true) = e.report false := by
  refine ⟨fun s hs => ?_, fun source d h hd => ?_, fun e he => (ScriptError.fades_report he).strip_eq⟩
  · have hformat := (Snippet.fades_format hs).strip_eq
    obtain ⟨check, hcheck⟩ := s.layOut_eq_map
    rw [hcheck, hcheck]
    exact ⟨hformat, map_strip hformat⟩
  · have hformat := (Diagnostic.fades_format h hd).strip_eq
    obtain ⟨check, hcheck⟩ := d.layOut_eq_map source
    rw [hcheck, hcheck]
    exact ⟨hformat, map_strip hformat⟩

/-- Texts that go on like the sequences in front of them. -/
theorem strip_coloured_brackets :
    let s : Snippet := ⟨[(1, "[0m"), (2, "m[31m")], 2, some 1⟩
    let d : Diagnostic := ⟨.error, ⟨some "[0m", ⟨1, 0⟩, ⟨1, 1⟩⟩, "m[1m"⟩
    let e : ScriptError := ⟨.reported .runtime "[0m" (some "[32m") [], some ⟨some "m", ⟨1, 0⟩, ⟨1, 1⟩⟩⟩
    s.Unescaped ∧ d.Unescaped ∧ Unescaped "[2m" ∧ e.Unescaped ∧
      s.format true ≠ s.format false ∧ strip (s.format true) = s.format false ∧
      d.format true (some "[2m") ≠ d.format false (some "[2m") ∧
      strip (d.format true (some "[2m")) = d.format false (some "[2m") ∧
      e.report true ≠ e.report false ∧ strip (e.report true) = e.report false := by
  intro s d e
  have hs : s.Unescaped := by
    show ∀ line ∈ [((1 : Int), "[0m"), (2, "m[31m")], Unescaped line.2
    decide
  have hd : d.Unescaped := ⟨by decide, fun name h => Option.some.inj h ▸ by decide⟩
  have hsource : Unescaped "[2m" := by decide
  have he : e.Unescaped := by
    refine ⟨by decide, fun hint h => ?_, fun span h => ?_⟩
    · obtain rfl : "[32m" = hint := Option.some.inj h
      decide
    · obtain rfl : _ = span := Option.some.inj h
      exact fun name h => Option.some.inj h ▸ by decide
  obtain ⟨hsnippet, hdiagnostic, herror⟩ := strip_coloured
  exact ⟨hs, hd, hsource, he, by decide +kernel, (hsnippet s hs).1, by decide +kernel,
    (hdiagnostic (some "[2m") d (fun text h => Option.some.inj h ▸ hsource) hd).1, by decide +kernel,
    herror e he⟩

end Stencil
