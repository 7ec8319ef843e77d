import Stencil.Proofs.SourceLines
import Stencil.Proofs.Tiling
import Stencil.Snippet

/-!
# Snippets and the lines of a source

A place counts the line feeds in front of it, and a snippet cuts its source at every boundary there
is. A source has at least as many lines for display as it has lines (`length_sourceLines_le`), and as
long as its lines are plain, that is hold no other boundary than the one at their end, the two are the
same (`getElem?_lines`). So a diagnostic always comes with a snippet when its line has a character,
and the line with its number is the line it is about when that line and those in front of it are
plain (`Template.parse_snippet`). Behind a form feed they are not: another line is marked.
-/

namespace Stencil

/-! ## Lines by number -/

/-- The line of a source with the given number. Lines count from one, as they do in places. -/
def lineOf? (cs : List Char) (number : Int) : Option (List Char) :=
  if 0 < number then (sourceLines cs)[number.toNat - 1]? else none

theorem lineOf?_succ (cs : List Char) (n : Nat) : lineOf? cs (1 + n) = (sourceLines cs)[n]? := by
  have hn : (1 + (n : Int)).toNat - 1 = n := by omega
  rw [lineOf?, if_pos (by omega), hn]

/-- The character at an offset is in the line and the column of its place. -/
theorem getElem?_positionAt (cs : List Char) (k : Nat) :
    ((lineOf? cs (positionAt cs k).line).bind fun chars => chars[(positionAt cs k).column.toNat]?) =
      cs[k]? := by
  rw [positionAt, lineOf?_succ]
  dsimp only
  rw [Int.toNat_natCast]
  induction cs generalizing k with
  | nil => simp [sourceLines]
  | cons c cs ih =>
    cases k with
    | zero =>
      rw [sourceLines]
      split
      · rfl
      · split <;> rfl
    | succ k =>
      rw [List.getElem?_cons_succ, ← ih k, List.take_succ_cons, List.reverse_cons]
      by_cases hc : c = '\n'
      · rw [sourceLines, if_pos hc, hc, List.count_cons_self, List.getElem?_cons_succ,
          takeWhile_stop (by decide)]
      rw [sourceLines, if_neg hc, List.count_cons_of_ne hc]
      by_cases hmem : '\n' ∈ cs.take k
      · -- the line of the offset is not the first one, which alone has the character
        obtain ⟨n, hn⟩ := Nat.exists_eq_succ_of_ne_zero (List.count_pos_iff.mpr hmem).ne'
        obtain ⟨as, bs, hsplit⟩ := List.append_of_mem (List.mem_reverse.mpr hmem)
        rw [hn, hsplit, List.append_assoc, List.cons_append, takeWhile_stop (by decide),
          takeWhile_stop (by decide)]
        split
        · next hnil => rw [hnil]; rfl
        · next hlines => rw [hlines]; rfl
      · have hrev : '\n' ∉ (cs.take k).reverse := mt List.mem_reverse.mp hmem
        have hmore : '\n' ∉ (cs.take k).reverse ++ [c] := by
          simpa [Ne.symm hc] using hmem
        rw [List.count_eq_zero.mpr hmem, takeWhile_of_not_mem hrev, takeWhile_of_not_mem hmore,
          List.length_append, List.length_singleton]
        split
        · next hnil => rw [hnil]; rfl
        · next hlines => rw [hlines]; rfl

/-! ## Lines for display -/

theorem length_sourceLines_cons (c : Char) (cs : List Char) : (sourceLines (c :: cs)).length =
    if c = '\n' then (sourceLines cs).length + 1 else max 1 (sourceLines cs).length := by
  rw [sourceLines]
  split
  · rfl
  · split
    · next h => rw [h]; rfl
    · next h =>
      rw [h, List.length_cons, List.length_cons]
      omega

/-- A line feed ends a line for display too. -/
theorem length_sourceLines_le (cs : List Char) : (sourceLines cs).length ≤ (Text.lines cs).length := by
  fun_induction Text.lines cs with
  | case1 => exact Nat.le_refl _
  | case2 rest ih =>
    rw [length_sourceLines_cons, if_neg (by decide), length_sourceLines_cons, if_pos rfl,
      List.length_cons]
    omega
  | case3 c rest _ _ ih =>
    rw [length_sourceLines_cons, List.length_cons]
    split <;> omega
  | case4 c rest _ hc hlines ih =>
    have hfeed : c ≠ '\n' := by
      rintro rfl
      exact hc rfl
    rw [hlines] at ih
    rw [length_sourceLines_cons, if_neg hfeed, List.length_singleton]
    exact Nat.max_le.mpr ⟨Nat.le_refl _, Nat.le_succ_of_le ih⟩
  | case5 c rest _ hc line more hlines ih =>
    have hfeed : c ≠ '\n' := by
      rintro rfl
      exact hc rfl
    rw [hlines, List.length_cons] at ih
    rw [length_sourceLines_cons, if_neg hfeed, List.length_cons]
    omega

/-- A line without its end: the line feed, and one carriage return in front of it. -/
def lineText (line : List Char) : List Char :=
  let body := line.takeWhile (· != '\n')
  if body.getLast? = some '\r' then body.dropLast else body

/-- A line that is one line for display. -/
def IsPlain (line : List Char) : Prop := ∀ c ∈ lineText line, Text.endsLine c = false

instance : DecidablePred IsPlain := fun line => List.decidableBAll _ (lineText line)

variable {line body : List Char}

theorem Text.lines_cons {c : Char} (hc : Text.endsLine c = false) (cs : List Char) :
    Text.lines (c :: cs) = match Text.lines cs with
      | [] => [[c]]
      | line :: more => (c :: line) :: more := by
  have hreturn : c ≠ '\r' := by
    rintro rfl
    exact absurd hc (by decide)
  exact (Text.lines.eq_3 c cs fun _ h => absurd h hreturn).trans (if_neg (Bool.eq_false_iff.mp hc))

/-- Characters that end no line come in front of the line that is ended behind them. -/
theorem Text.lines_append {stop : List Char} {more : List (List Char)}
    (hbody : ∀ c ∈ body, Text.endsLine c = false) (h : Text.lines stop = [] :: more) :
    Text.lines (body ++ stop) = body :: more := by
  induction body with
  | nil => exact h
  | cons c body ih =>
    obtain ⟨hc, hbody⟩ := List.forall_mem_cons.mp hbody
    rw [List.cons_append, Text.lines_cons hc, ih hbody]

theorem Text.lines_body (hne : body ≠ []) (hbody : ∀ c ∈ body, Text.endsLine c = false) :
    Text.lines body = [body] := by
  induction body with
  | nil => exact absurd rfl hne
  | cons c body ih =>
    obtain ⟨hc, hbody⟩ := List.forall_mem_cons.mp hbody
    rw [Text.lines_cons hc]
    cases body with
    | nil => rfl
    | cons d body => rw [ih (List.cons_ne_nil d body) hbody]

theorem lineText_feed (body : List Char) : lineText (body ++ ['\n']) = lineText body := by
  rw [lineText, takeWhile_line (by decide), ← lineText]

theorem lineText_or (h : '\n' ∉ body) : body = lineText body ∨ body = lineText body ++ ['\r'] := by
  rw [lineText, takeWhile_of_not_mem h]
  split
  · next hlast => exact .inr (List.dropLast_append_getLast? _ hlast).symm
  · exact .inl rfl

/-- A plain line is the first line for display, and what is behind it makes the others. -/
theorem lines_line {more : List (List Char)} (h : Lines (line :: more)) (hplain : IsPlain line) :
    Text.lines (line ++ more.flatten) = lineText line :: Text.lines more.flatten := by
  cases h with
  | last hne hline =>
    rw [List.flatten_nil, List.append_nil]
    obtain heq | heq := lineText_or hline
    · rw [← heq]
      exact Text.lines_body hne fun c hc => hplain c (heq ▸ hc)
    · rw [IsPlain] at hplain
      generalize lineText line = text at heq hplain
      rw [heq]
      exact Text.lines_append hplain rfl
  | @cons body _ hbody _ =>
    rw [IsPlain, lineText_feed] at hplain
    rw [lineText_feed, List.append_assoc, List.singleton_append]
    obtain heq | heq := lineText_or hbody
    · rw [← heq] at hplain ⊢
      exact Text.lines_append hplain rfl
    · generalize lineText body = text at heq hplain
      rw [heq, List.append_assoc, List.singleton_append]
      exact Text.lines_append hplain rfl

/-- The lines of a source up to the given number are plain. -/
def PlainUpTo (cs : List Char) (number : Int) : Prop :=
  ∀ line ∈ (sourceLines cs).take number.toNat, IsPlain line

instance (cs : List Char) (number : Int) : Decidable (PlainUpTo cs number) :=
  List.decidableBAll _ ((sourceLines cs).take number.toNat)

theorem lines_flatten (front : List (List Char)) {more : List (List Char)} (h : Lines (front ++ more))
    (hplain : ∀ line ∈ front, IsPlain line) :
    Text.lines (front ++ more).flatten = front.map lineText ++ Text.lines more.flatten := by
  induction front with
  | nil => rfl
  | cons line front ih =>
    obtain ⟨hline, hplain⟩ := List.forall_mem_cons.mp hplain
    rw [List.cons_append] at h
    rw [List.cons_append, List.flatten_cons, lines_line h hline, ih (h.append_inv [line]) hplain]
    rfl

/-- As long as its lines are plain, a source has them for display. -/
theorem getElem?_lines {cs : List Char} {number : Int} (h : PlainUpTo cs number) (hpos : 0 < number) :
    (Text.lines cs)[number.toNat - 1]? = (lineOf? cs number).map lineText := by
  have hsplit := List.take_append_drop number.toNat (sourceLines cs)
  have hlines := lines_flatten ((sourceLines cs).take number.toNat) (hsplit ▸ lines_sourceLines cs) h
  rw [hsplit, flatten_sourceLines] at hlines
  rw [lineOf?, if_pos hpos, hlines]
  by_cases hlen : number.toNat - 1 < (sourceLines cs).length
  · rw [List.getElem?_append_left (by simp; omega), List.getElem?_map, List.getElem?_take_of_lt (by omega)]
  · rw [List.drop_of_length_le (by omega), List.take_of_length_le (by omega), List.flatten_nil]
    simp [Text.lines]

/-! ## Lines shown -/

theorem Snippet.mem_numbered {first last number : Int} {lines : List String} {text : String} :
    (number, text) ∈ Snippet.numbered first last lines ↔
      first < number ∧ number ≤ last ∧ 0 < number ∧ lines[number.toNat - 1]? = some text := by
  simp only [Snippet.numbered, List.mem_map, List.mem_filter, Prod.exists, Prod.mk.injEq,
    List.mk_mem_zipIdx_iff_getElem?, Bool.and_eq_true, decide_eq_true_eq]
  constructor
  · rintro ⟨text, i, ⟨hi, hfirst, hlast⟩, rfl, rfl⟩
    refine ⟨by omega, by omega, by omega, ?_⟩
    rwa [show ((i : Int) + 1).toNat - 1 = i by omega]
  · rintro ⟨hfirst, hlast, hpos, hi⟩
    exact ⟨text, number.toNat - 1, ⟨hi, by omega, by omega⟩, by omega, rfl⟩

/-- Lines are shown in their order. -/
theorem Snippet.numbered_ordered (first last : Int) (lines : List String) :
    (Snippet.numbered first last lines).Pairwise fun a b => a.1 < b.1 := by
  have hplaces : (lines.zipIdx.map Prod.snd).Pairwise (· < ·) := by
    rw [List.zipIdx_map_snd]
    exact List.pairwise_lt_range'
  rw [List.pairwise_map] at hplaces
  rw [Snippet.numbered, List.pairwise_map]
  exact (hplaces.filter _).imp fun h => by dsimp only; omega

theorem linesOf_getElem? (source : String) (i : Nat) :
    (Text.linesOf source)[i]? = (Text.lines source.toList)[i]?.map String.ofList :=
  List.getElem?_map

/-- What is shown around a line of a source, where its lines are plain. -/
theorem Snippet.mem_around {source : String} {line number : Int} {column : Option Int} {text : String}
    (h : PlainUpTo source.toList number) :
    (number, text) ∈ (Snippet.around source line 1 column).lines ↔
      line - 1 ≤ number ∧ number ≤ line + 1 ∧
        ∃ chars, lineOf? source.toList number = some chars ∧ text = String.ofList (lineText chars) := by
  have hlines (hpos : 0 < number) : (Text.linesOf source)[number.toNat - 1]? = some text ↔
      ∃ chars, lineOf? source.toList number = some chars ∧ text = String.ofList (lineText chars) := by
    simp [linesOf_getElem?, getElem?_lines h hpos, eq_comm]
  rw [Snippet.around, Snippet.mem_numbered]
  constructor
  · rintro ⟨hfirst, hlast, hpos, htext⟩
    exact ⟨by omega, hlast, (hlines hpos).mp htext⟩
  · rintro ⟨hfirst, hlast, chars, hchars, htext⟩
    have hpos : 0 < number := by
      by_contra hneg
      rw [lineOf?, if_neg hneg] at hchars
      cases hchars
    exact ⟨by omega, hlast, hpos, (hlines hpos).mpr ⟨chars, hchars, htext⟩⟩

/-- A snippet comes with a diagnostic about a line of the source. -/
theorem Diagnostic.snippet?_isSome {source : String} {d : Diagnostic}
    (h : (lineOf? source.toList d.span.start.line).isSome) : (d.snippet? (some source)).isSome := by
  rw [lineOf?] at h
  split at h
  · next hpos =>
    have hlen : d.span.start.line.toNat - 1 < (sourceLines source.toList).length := by simpa using h
    have hle := length_sourceLines_le source.toList
    have hlines : (Text.linesOf source).length = (Text.lines source.toList).length := List.length_map _
    rw [Diagnostic.snippet?, Option.bind_some]
    dsimp only
    rw [if_pos (by simp only [Bool.and_eq_true, decide_eq_true_eq]; omega)]
    rfl
  · cases h

/-- A diagnostic is about a place of its source, and if that is in a line, a snippet comes with it. It
marks the number of the line and shows those of its neighbours, in their order, and a number up to
which the lines of the source are plain stands in front of the line that it counts. -/
theorem Template.parse_snippet {options : TemplateOptions} {path : Option String} {source : String}
    {t : Template} (h : Template.parse options path source = .ok t) {d : Diagnostic}
    (hd : d ∈ t.diagnostics) :
    (∃ k ≤ source.toList.length, d.span.start = positionAt source.toList k ∧
      ((lineOf? source.toList d.span.start.line).bind fun chars => chars[d.span.start.column.toNat]?) =
        source.toList[k]?) ∧
    ((lineOf? source.toList d.span.start.line).isSome → (d.snippet? (some source)).isSome) ∧
    ∀ s, d.snippet? (some source) = some s →
      (∀ colors, d.format colors (some source) = d.format colors none ++ "\n" ++ s.format colors) ∧
      s.line = d.span.start.line ∧ s.column = some d.span.start.column ∧
      s.lines.Pairwise (fun a b => a.1 < b.1) ∧
      ∀ number, PlainUpTo source.toList number → ∀ text, (number, text) ∈ s.lines ↔
        s.line - 1 ≤ number ∧ number ≤ s.line + 1 ∧
          ∃ chars, lineOf? source.toList number = some chars ∧ text = String.ofList (lineText chars) := by
  obtain ⟨a, b, hab, hb, hspan⟩ := Template.realSpan_of_parse h hd
  have hplace : d.span.start = positionAt source.toList a := by rw [hspan]
  refine ⟨⟨a, by omega, hplace, hplace ▸ getElem?_positionAt _ a⟩, Diagnostic.snippet?_isSome,
    fun s hs => ?_⟩
  have hformat colors : d.format colors (some source) =
      d.format colors none ++ "\n" ++ s.format colors := by
    rw [Diagnostic.format, hs]
    rfl
  rw [Diagnostic.snippet?, Option.bind_some, Option.ite_none_right_eq_some, Option.some.injEq] at hs
  obtain ⟨-, rfl⟩ := hs
  exact ⟨hformat, rfl, rfl, Snippet.numbered_ordered _ _ _,
    fun number hplain text => Snippet.mem_around hplain⟩

/-- A carriage return in front of the line feed is no part of the lines shown. -/
theorem Template.parse_snippet_return :
    let source := "a\r\n\x7b\x7b 1 + \x7d\x7d"
    ∃ t d s, Template.parse {} none source = .ok t ∧ d ∈ t.diagnostics ∧
      d.snippet? (some source) = some s ∧ s.line = 2 ∧ PlainUpTo source.toList 1 ∧
      PlainUpTo source.toList 2 ∧ (1, "a") ∈ s.lines ∧ (2, "\x7b\x7b 1 + \x7d\x7d") ∈ s.lines := by
  intro source
  let t := (Template.parse {} none source).toOption.getD {}
  let d : Diagnostic := ⟨.error, ⟨none, ⟨2, 7⟩, ⟨2, 9⟩⟩,
    "Expecting an expression, got the end of the statement"⟩
  have ht : Template.parse {} none source = .ok t := Template.parse_of_toBool (by decide +kernel)
  have hd : d ∈ t.diagnostics := by decide +kernel
  obtain ⟨-, hshown, hlines⟩ := Template.parse_snippet ht hd
  obtain ⟨s, hs⟩ := Option.isSome_iff_exists.mp (hshown (by decide +kernel))
  obtain ⟨-, hline, -, -, hmem⟩ := hlines s hs
  have hline : s.line = 2 := hline
  have h₁ : PlainUpTo source.toList 1 := by decide +kernel
  have h₂ : PlainUpTo source.toList 2 := by decide +kernel
  refine ⟨t, d, s, ht, hd, hs, hline, h₁, h₂, (hmem 1 h₁ _).mpr ?_, (hmem 2 h₂ _).mpr ?_⟩
  · exact ⟨by omega, by omega, ['a', '\r', '\n'], by decide +kernel, by decide +kernel⟩
  · exact ⟨by omega, by omega, "\x7b\x7b 1 + \x7d\x7d".toList, by decide +kernel, by decide +kernel⟩

/-- A form feed ends a line for display only, so the line that has the number of the diagnostic's line
may be another one. -/
theorem Template.not_parse_snippet :
    ¬ ∀ options path source t, Template.parse options path source = .ok t → ∀ d ∈ t.diagnostics,
      ∀ s, d.snippet? (some source) = some s → ∀ text, (s.line, text) ∈ s.lines →
        ∃ chars, lineOf? source.toList s.line = some chars ∧ text = String.ofList (lineText chars) := by
  intro h
  let source := "a\x0cb\n\x7b\x7b 1 + \x7d\x7d"
  let t := (Template.parse {} none source).toOption.getD {}
  let d : Diagnostic := ⟨.error, ⟨none, ⟨2, 7⟩, ⟨2, 9⟩⟩,
    "Expecting an expression, got the end of the statement"⟩
  let s : Snippet := ⟨[(1, "a"), (2, "b"), (3, "\x7b\x7b 1 + \x7d\x7d")], 2, some 7⟩
  have ht : Template.parse {} none source = .ok t := Template.parse_of_toBool (by decide +kernel)
  have hd : d ∈ t.diagnostics := by decide +kernel
  have hs : d.snippet? (some source) = some s := by decide +kernel
  have hline : lineOf? source.toList s.line = some "\x7b\x7b 1 + \x7d\x7d".toList := by decide +kernel
  obtain ⟨chars, hchars, htext⟩ := h {} none source t ht d hd s hs "b" (by decide)
  obtain rfl := Option.some.inj (hline.symm.trans hchars)
  exact absurd htext (by decide +kernel)

end Stencil
