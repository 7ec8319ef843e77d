import Stencil.Grammar.Problem
import Stencil.Proofs.Colours

/-!
# Carets under columns

A snippet and a syntax error show a line of a source and, in the row right below, a caret for a
column (`ShowsCaret`). What stands in front of the line grows with its number, which takes three
characters or as many as it has digits (`length_lineGutter`); what stands in front of the caret does
not (`length_caretMargin`). `caret_offset` says how far apart the caret and its column are: the
caret of a snippet stands two characters to the left of its column, that of a syntax error one, and
both one more for each digit of the number beyond three.
-/

namespace Stencil

open Terminal (not_mem_append not_mem_lineNumber)

/-- A text shows a content behind a gutter and, in the row right below, a caret behind a margin. -/
def ShowsCaret (text gutter content margin : String) : Prop :=
  '\n' ∉ gutter.toList ∧ '\n' ∉ margin.toList ∧
    ∃ before after, text = before ++ "\n" ++ gutter ++ content ++ "\n" ++ margin ++ "^" ++ after

/-! ## In front of lines and carets -/

/-- A row of blanks. -/
def blanks (n : Nat) : String := String.ofList (List.replicate n ' ')

/-- What stands in front of a line with its number. -/
def lineGutter (mark : String) (number : Int) : String :=
  mark ++ Terminal.lineNumber number ++ " | "

/-- What stands in front of the caret under a column. -/
def caretMargin (column : Nat) : String := "   | " ++ blanks column

/-- The number of characters of a line number, without padding. -/
def numberWidth (number : Int) : Nat := (toString number).length

theorem length_blanks (n : Nat) : (blanks n).length = n := by
  rw [blanks, String.length_ofList, List.length_replicate]

theorem blanks_succ (n : Nat) : blanks (n + 1) = " " ++ blanks n := by
  rw [← String.toList_inj, String.toList_append]
  simp only [blanks, String.toList_ofList, List.replicate_succ]
  rfl

theorem length_lineNumber (number : Int) :
    (Terminal.lineNumber number).length = max 3 (numberWidth number) := by
  show (blanks (3 - numberWidth number) ++ toString number).length = _
  rw [String.length_append, length_blanks, ← numberWidth]
  omega

theorem length_lineGutter (mark : String) (number : Int) :
    (lineGutter mark number).length = mark.length + max 3 (numberWidth number) + 3 := by
  rw [lineGutter, String.length_append, String.length_append, length_lineNumber]
  rfl

theorem length_caretMargin (column : Nat) : (caretMargin column).length = column + 5 := by
  rw [caretMargin, String.length_append, length_blanks, Nat.add_comm]
  rfl

theorem feed_not_mem_lineGutter {mark : String} (h : '\n' ∉ mark.toList) (number : Int) :
    '\n' ∉ (lineGutter mark number).toList :=
  not_mem_append (not_mem_append h (not_mem_lineNumber (by decide) (by decide) (by decide) number))
    (by decide)

theorem feed_not_mem_caretMargin (column : Nat) : '\n' ∉ (caretMargin column).toList := by
  refine not_mem_append (by decide) ?_
  rw [blanks, String.toList_ofList, List.mem_replicate]
  exact fun h => absurd h.2 (by decide)

/-! ## Snippets and syntax errors -/

/-- The line in question and its caret are two rows of the snippet, between other rows. -/
theorem Snippet.showsCaret_format {s : Snippet} {content : String} {column : Nat}
    (hline : (s.line, content) ∈ s.lines) (hcolumn : s.column = some (column : Int)) :
    ShowsCaret (s.format false) (lineGutter ">" s.line) content (caretMargin column) := by
  obtain ⟨front, behind, hlines⟩ := List.append_of_mem hline
  let rows (lines : List (Int × String)) : List String :=
    lines.flatMap fun line => s.formatLine false line.1 line.2
  have hpointer : gutter ++ pointer column = caretMargin column ++ "^" := by
    show "   |" ++ (blanks ((column : Int) + 1).toNat ++ "^") = "   |" ++ " " ++ blanks column ++ "^"
    rw [show ((column : Int) + 1).toNat = column + 1 by omega, blanks_succ]
    simp only [String.append_assoc]
  have hrows : s.formatLine false s.line content =
      [lineGutter ">" s.line ++ content, caretMargin column ++ "^"] := by
    rw [formatLine, hcolumn, ← hpointer]
    simp only [beq_self_eq_true, if_true]
    rfl
  have hformat : s.format false = "\n".intercalate ((gutter :: rows front) ++
      ([lineGutter ">" s.line ++ content] ++
        ([caretMargin column ++ "^"] ++ (rows behind ++ [gutter])))) := by
    simp only [format, hlines, List.flatMap_append, List.flatMap_cons, hrows, rows]
    simp only [List.cons_append, List.nil_append, List.append_assoc]
    rfl
  refine ⟨feed_not_mem_lineGutter (by decide) _, feed_not_mem_caretMargin _,
    "\n".intercalate (gutter :: rows front), "\n" ++ "\n".intercalate (rows behind ++ [gutter]), ?_⟩
  rw [hformat, String.intercalate_append_of_ne_nil (by simp) (by simp),
    String.intercalate_append_of_ne_nil (by simp) (by simp),
    String.intercalate_append_of_ne_nil (by simp) (by simp), String.intercalate_singleton,
    String.intercalate_singleton]
  simp only [String.append_assoc]

theorem SyntaxError.showsCaret_text {file source : Option String} {e : SyntaxError} {content : String}
    {column : Nat} (hline : sourceLineOf source e.token.start.line = some content)
    (hcolumn : e.token.start.column = column) :
    ShowsCaret (e.text file source) (lineGutter "" e.token.start.line) content
      (caretMargin column) := by
  refine ⟨feed_not_mem_lineGutter (by decide) _, feed_not_mem_caretMargin _, ?_⟩
  have hrow : "\n   |\n" = "\n   |" ++ "\n" := rfl
  have hmargin : "\n   | " = "\n" ++ "   | " := rfl
  refine ⟨"Parse Error: " ++ e.message ++ "\n  --> " ++ sourceName file ++ ":" ++
      toString e.token.start.line ++ ":" ++ toString e.token.start.column ++ "\n   |",
    (e.advice?.map ("\n\nSuggestion: " ++ ·)).getD "", ?_⟩
  unfold text
  simp only [hline, hcolumn, Int.toNat_natCast, lineGutter, caretMargin, blanks, hrow, hmargin,
    String.empty_append, ← String.append_assoc]
  cases e.advice? <;> rfl

/-! ## Where the caret stands -/

/-- The caret of a snippet stands to the left of its column by one character less than the number of
its line takes, and the caret of a syntax error by two less. Since a number takes at least three
characters, no caret stands under its column. -/
theorem caret_offset (s : Snippet) (e : SyntaxError) (file source : Option String)
    (content : String) (column : Nat) :
    ((s.line, content) ∈ s.lines → s.column = some (column : Int) →
      ShowsCaret (s.format false) (lineGutter ">" s.line) content (caretMargin column) ∧
        (caretMargin column).length + (max 3 (numberWidth s.line) - 1) =
          (lineGutter ">" s.line).length + column) ∧
    (sourceLineOf source e.token.start.line = some content → e.token.start.column = column →
      ShowsCaret (e.text file source) (lineGutter "" e.token.start.line) content
          (caretMargin column) ∧
        (caretMargin column).length + (max 3 (numberWidth e.token.start.line) - 2) =
          (lineGutter "" e.token.start.line).length + column) := by
  constructor
  · intro hline hcolumn
    refine ⟨s.showsCaret_format hline hcolumn, ?_⟩
    have hmark : ">".length = 1 := rfl
    rw [length_caretMargin, length_lineGutter, hmark]
    omega
  · intro hline hcolumn
    refine ⟨e.showsCaret_text hline hcolumn, ?_⟩
    have hmark : "".length = 0 := rfl
    rw [length_caretMargin, length_lineGutter, hmark]
    omega

/-- A line of a thousand and a line of seven, with the caret for the second character. -/
theorem caret_offset_digits :
    let s : Snippet := ⟨[(999, ""), (1000, "ab")], 1000, some 1⟩
    let e : SyntaxError := ⟨"bad", ⟨.identifier, "b", ⟨7, 1⟩, ⟨7, 2⟩⟩, none⟩
    (ShowsCaret (s.format false) ">1000 | " "ab" "   |  " ∧
        "   |  ".length + 3 = ">1000 | ".length + 1) ∧
      ShowsCaret (e.text none (some "\n\n\n\n\n\nab")) "  7 | " "ab" "   |  " ∧
        "   |  ".length + 1 = "  7 | ".length + 1 := by
  intro s e
  have h := caret_offset s e none (some "\n\n\n\n\n\nab") "ab" 1
  have hs := h.1 (by decide) rfl
  have he := h.2 (by decide +kernel) rfl
  have hmargin : caretMargin 1 = "   |  " := by decide
  have hsgutter : lineGutter ">" s.line = ">1000 | " := by decide +kernel
  have hegutter : lineGutter "" e.token.start.line = "  7 | " := by decide +kernel
  rw [hmargin, hsgutter] at hs
  rw [hmargin, hegutter] at he
  exact ⟨⟨hs.1, by decide⟩, he.1, by decide⟩

/-- The caret stands as far from the start of its row as the given character of the content. -/
def CaretUnder (text content : String) (column : Nat) : Prop :=
  ∃ gutter margin, ShowsCaret text gutter content margin ∧ margin.length = gutter.length + column

/-- Where the pieces are: the content starts behind a line feed and the gutter and ends with its
line, and the caret stands behind that line and the margin. -/
theorem CaretUnder.places {text content : String} {column : Nat} (h : CaretUnder text content column) :
    ∃ start < text.length, ∃ width < text.length, text.toList[start]? = some '\n' ∧
      content.toList ++ ['\n'] <+: text.toList.drop (start + 1 + width) ∧
      text.toList[start + 1 + width + content.length + 1 + width + column]? = some '^' := by
  obtain ⟨gutter, margin, ⟨-, -, before, after, rfl⟩, hwidth⟩ := h
  have hpieces : (before ++ "\n" ++ gutter ++ content ++ "\n" ++ margin ++ "^" ++ after).toList =
      (before.toList ++ '\n' :: gutter.toList) ++
        (content.toList ++ '\n' :: margin.toList ++ '^' :: after.toList) := by
    simp [String.toList_append]
  have hlength : before.length + gutter.length <
        (before ++ "\n" ++ gutter ++ content ++ "\n" ++ margin ++ "^" ++ after).length := by
    simp only [String.length_append, show "\n".length = 1 from rfl]
    omega
  refine ⟨before.length, by omega, gutter.length, by omega, ?_, ?_, ?_⟩
  · rw [hpieces, List.append_assoc, ← String.length_toList,
      List.getElem?_append_right (Nat.le_refl _), Nat.sub_self]
    rfl
  · rw [hpieces, List.drop_left' (by simp [String.length_toList]; omega)]
    exact ⟨margin.toList ++ '^' :: after.toList, by simp⟩
  · have hcolumn : before.length + 1 + gutter.length + content.length + 1 + gutter.length + column =
        ((before.toList ++ '\n' :: gutter.toList) ++
          (content.toList ++ '\n' :: margin.toList)).length := by
      simp [String.length_toList]
      omega
    rw [hpieces, hcolumn, ← List.append_assoc, List.getElem?_append_right (Nat.le_refl _),
      Nat.sub_self]
    rfl

/-- A line with one character, and the caret for that character: it stands somewhere else. -/
theorem not_caret_offset :
    (¬ ∀ (s : Snippet) (content : String) (column : Nat), (s.line, content) ∈ s.lines →
        s.column = some (column : Int) → column < content.length →
        CaretUnder (s.format false) content column) ∧
      ¬ ∀ (file source : Option String) (e : SyntaxError) (content : String) (column : Nat),
        sourceLineOf source e.token.start.line = some content → e.token.start.column = column →
        column < content.length → CaretUnder (e.text file source) content column := by
  constructor
  · intro h
    have hunder := h ⟨[(1, "a")], 1, some 0⟩ "a" 0 (by decide) rfl (by decide)
    exact absurd hunder.places (by decide +kernel)
  · intro h
    have hunder := h none (some "a") ⟨"x", ⟨.identifier, "a", ⟨1, 0⟩, ⟨1, 1⟩⟩, none⟩ "a" 0
      (by decide +kernel) rfl (by decide)
    exact absurd hunder.places (by decide +kernel)

end Stencil
