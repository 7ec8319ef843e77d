import Mathlib.Data.List.TakeWhile
import Stencil.Proofs.Seam

/-!
# Lines of a source

A source is its lines, each with the line feed that ends it (`sourceLines`). No piece of a
script goes on behind the end of its line (`scanCode_line`), so a script is cut line by line,
and in front matter each line is looked at: the first one that is a marker line closes it
(`lexFrom_front`). Where a source starts only moves what is cut off it (`lexFrom_down`).
-/

namespace Stencil

/-! ## Lines -/

/-- The lines of a source, with the line feeds that end them. -/
def sourceLines : List Char → List (List Char)
  | [] => []
  | c :: cs =>
    if c = '\n' then [c] :: sourceLines cs
    else
      match sourceLines cs with
      | [] => [[c]]
      | line :: lines => (c :: line) :: lines

/-- Whether a line is a marker and blank space. -/
def isMarkerLine (marker line : List Char) : Bool :=
  marker.isPrefixOf line && (line.drop marker.length).all Text.isBlank

/-- Lines of a source: line feeds end all of them but the last one. -/
inductive Lines : List (List Char) → Prop
  | nil : Lines []
  | last {line : List Char} : line ≠ [] → '\n' ∉ line → Lines [line]
  | cons {line : List Char} {lines : List (List Char)} : '\n' ∉ line → Lines lines →
      Lines ((line ++ ['\n']) :: lines)

theorem lines_sourceLines (cs : List Char) : Lines (sourceLines cs) := by
  induction cs with
  | nil => exact .nil
  | cons c cs ih =>
    rw [sourceLines]
    split
    · next hc =>
      have hempty : Lines (([] ++ ['\n']) :: sourceLines cs) := .cons List.not_mem_nil ih
      rw [hc]
      exact hempty
    · next hc =>
      split
      · exact .last (List.cons_ne_nil c []) (by simpa using Ne.symm hc)
      · next line lines hlines =>
        rw [hlines] at ih
        cases ih with
        | last _ hline => exact .last (List.cons_ne_nil c line) (by simp [Ne.symm hc, hline])
        | @cons line _ hline hrest =>
          have hmore : Lines ((c :: line ++ ['\n']) :: lines) :=
            .cons (by simp [Ne.symm hc, hline]) hrest
          exact hmore

theorem flatten_sourceLines (cs : List Char) : (sourceLines cs).flatten = cs := by
  induction cs with
  | nil => rfl
  | cons c cs ih =>
    rw [sourceLines]
    split
    · rw [List.flatten_cons, ih, List.singleton_append]
    · split
      · next hnil =>
        rw [hnil] at ih
        simp [← ih]
      · next hlines =>
        rw [hlines] at ih
        simp [← ih]

theorem Lines.append_inv (lines : List (List Char)) {more : List (List Char)}
    (h : Lines (lines ++ more)) : Lines more := by
  induction lines with
  | nil => exact h
  | cons line lines ih =>
    rw [List.cons_append] at h
    generalize hall : lines ++ more = all at h ih
    cases h with
    | last => rw [(List.append_eq_nil_iff.mp hall).2]; exact .nil
    | cons _ hrest => exact ih hrest

variable {line : List Char}

/-- What is taken while `p` holds stops at the first character for which it fails. -/
theorem takeWhile_stop {p : Char → Bool} {d : Char} (hp : p d = false) (line rest : List Char) :
    (line ++ d :: rest).takeWhile p = line.takeWhile p := by
  rw [List.takeWhile_append]
  split
  · next hall =>
    rw [List.takeWhile_cons_of_neg (by simp [hp]), List.append_nil]
    exact ((List.takeWhile_prefix p).eq_of_length hall).symm
  · rfl

theorem takeWhile_line {p : Char → Bool} (hp : p '\n' = false) (line rest : List Char) :
    (line ++ '\n' :: rest).takeWhile p = line.takeWhile p := takeWhile_stop hp line rest

theorem takeWhile_of_not_mem (h : '\n' ∉ line) : line.takeWhile (· != '\n') = line := by
  refine List.takeWhile_eq_self_iff.mpr fun c hc => ?_
  simpa using ne_of_mem_of_not_mem hc h

theorem firstLine_of_not_mem (h : '\n' ∉ line) : firstLine line = line := by
  simp [firstLine, takeWhile_of_not_mem h]

theorem firstLine_line (h : '\n' ∉ line) (rest : List Char) :
    firstLine (line ++ '\n' :: rest) = line ++ ['\n'] := by
  simp [firstLine, takeWhile_line, takeWhile_of_not_mem h]

/-! ## Pieces of a line -/

theorem stringBody?_line {quote : Char} (hslash : quote ≠ '\\') (hfeed : quote ≠ '\n')
    (h : '\n' ∉ line) (rest : List Char) :
    stringBody? quote (line ++ '\n' :: rest) = stringBody? quote line := by
  fun_induction stringBody? quote line with
  | case1 => simp [stringBody?, hfeed.symm]
  | case2 c cs hc =>
    rw [beq_iff_eq] at hc
    simp [hc] at h
  | case3 c cs hc ih =>
    rw [List.cons_append, List.cons_append, stringBody?, if_neg hc, ih (by simp_all)]
  | case4 c cs _ hc =>
    have hne : c ≠ '\\' := fun e => hslash (by rw [← beq_iff_eq.mp hc, e])
    rw [List.cons_append, stringBody?, if_pos hc]
    exact fun _ _ e => absurd e hne
  | case5 c cs hpair hc hstop =>
    have hfeed' : c ≠ '\n' := fun e => h (by simp [e])
    have hc' : c = '\\' := by simp_all
    have hcs : cs = [] := by
      cases cs with
      | nil => rfl
      | cons d ds => exact (hpair d ds hc' rfl).elim
    simp [stringBody?, hc', hcs]
  | case6 c cs _ hc hstop ih =>
    have hne : c ≠ '\\' := fun e => hstop (by simp [e])
    rw [List.cons_append, stringBody?, if_neg hc, if_neg hstop, ih (by simp_all)]
    exact fun _ _ e => absurd e hne

theorem stringBody?_length {quote : Char} {cs body : List Char} (h : stringBody? quote cs = some body) :
    body.length < cs.length := by
  fun_induction stringBody? quote cs generalizing body with
  | case1 | case2 | case5 => cases h
  | case3 c cs hc ih =>
    obtain ⟨body, hbody, rfl⟩ := Option.map_eq_some_iff.mp h
    have := ih hbody
    simp only [List.length_cons]
    omega
  | case4 c cs => cases h; simp
  | case6 c cs _ hc hstop ih =>
    obtain ⟨body, hbody, rfl⟩ := Option.map_eq_some_iff.mp h
    have := ih hbody
    simp only [List.length_cons]
    omega

/-- A number ends in front of what is neither a digit nor a point. -/
theorem scanNumber_stop {d : Char} (hd : Text.isDecimal d = false) (hpoint : d ≠ '.') (c : Char)
    (line rest : List Char) : scanNumber c (line ++ d :: rest) = scanNumber c line := by
  unfold scanNumber
  dsimp only
  rw [takeWhile_stop hd, List.drop_append_of_le_length (List.takeWhile_prefix _).length_le]
  generalize line.drop (line.takeWhile Text.isDecimal).length = tail
  rcases tail with _ | ⟨x, _ | ⟨y, ys⟩⟩
  · simp [hpoint]
  · by_cases hx : x = '.'
    · simp [hx, hd]
    · simp [hx]
  · by_cases hx : x = '.'
    · simp [hx, takeWhile_stop hd]
    · simp [hx]

theorem scanNumber_line (c : Char) (line rest : List Char) :
    scanNumber c (line ++ '\n' :: rest) = scanNumber c line :=
  scanNumber_stop (by decide) (by decide) c line rest

theorem scanNumber_le (c : Char) (cs : List Char) : (scanNumber c cs).2 ≤ cs.length := by
  have hwhole := (List.takeWhile_prefix (l := cs) Text.isDecimal).length_le
  unfold scanNumber
  dsimp only
  split
  · next d ds hdrop =>
    have hlength := congrArg List.length hdrop
    have hpart := (List.takeWhile_prefix (l := ds) Text.isDecimal).length_le
    simp only [List.length_drop, List.length_cons] at hlength
    split
    · simp only [List.length_cons]
      omega
    · exact hwhole
  · exact hwhole

/-- A piece of code ends with its line. -/
theorem scanCode_line {c : Char} (hc : c ≠ '\n') (h : '\n' ∉ line) (inBlock : Bool)
    (rest : List Char) : scanCode inBlock c (line ++ '\n' :: rest) = scanCode inBlock c line := by
  have hsign : signAt? c (line ++ '\n' :: rest) = signAt? c line := by
    cases line <;> simp [signAt?]
  unfold scanCode
  rw [hsign]
  split
  · simp [scanComment, takeWhile_line]
  split
  · rw [takeWhile_line (by decide)]
  split
  · rfl
  split
  · exact scanNumber_line c line rest
  split
  · next hquote =>
    have hslash : c ≠ '\\' := by
      rintro rfl
      revert hquote
      decide
    rw [scanString, stringBody?_line hslash hc h, takeWhile_line (by decide), scanString]
  split
  · rw [takeWhile_line (by decide)]
  split
  · rw [takeWhile_line (by decide)]
  · rfl

theorem scanCode_le (inBlock : Bool) (c : Char) (cs : List Char) :
    (scanCode inBlock c cs).2 ≤ cs.length := by
  have htake (p : Char → Bool) : (cs.takeWhile p).length ≤ cs.length :=
    (List.takeWhile_prefix p).length_le
  unfold scanCode
  split
  · unfold scanComment
    dsimp only
    split
    · exact Nat.le_trans ((beforePair_isPrefix _ _).length_le) (htake _)
    · exact htake _
  split
  · exact htake _
  split
  · exact Nat.zero_le _
  split
  · exact scanNumber_le c cs
  split
  · unfold scanString
    split
    · next hbody => exact stringBody?_length hbody
    · exact htake _
  split
  · exact htake _
  split
  · exact htake _
  split
  · next hsign =>
    cases cs with
    | nil => simp [signAt?] at hsign
    | cons => simp
  · exact Nat.zero_le _
  · exact Nat.zero_le _

/-! ## Scripts and front matter, line by line -/

theorem Position.after_of_not_mem (h : '\n' ∉ line) (p : Position) :
    p.after line = ⟨p.line, p.column + line.length⟩ := by
  induction line generalizing p with
  | nil => simp
  | cons c line ih =>
    rw [List.mem_cons, not_or] at h
    rw [Position.after_cons, ih h.2, Position.next, if_neg (Ne.symm h.1)]
    simp only [List.length_cons, Position.mk.injEq, true_and]
    omega

/-- What was cut, with items in front of it. -/
def Lexed.behind (items : List LexItem) (l : Lexed) : Lexed := ⟨items ++ l.items, l.stop⟩

theorem Lexed.behind_behind (as bs : List LexItem) (l : Lexed) :
    (l.behind bs).behind as = l.behind (as ++ bs) := by
  simp [behind]

theorem Lexed.tokens_behind (items : List LexItem) (l : Lexed) :
    (l.behind items).tokens = items.filterMap LexItem.token? ++ l.tokens := by
  simp [behind, tokens]

theorem Lexed.diagnostics_behind (l : Lexed) (items : List LexItem) (p : Position)
    (file : Option String) :
    (l.behind items).diagnostics file = (Lexed.mk items p).diagnostics file ++ l.diagnostics file := by
  simp [behind, diagnostics]

/-- What a script is cut into. -/
def scriptItems (p : Position) (cs : List Char) : List LexItem := (lexFrom {} .script p cs).items

/-- Whether the piece of a section at a place is one of a script: in front matter, a marker line
is none. -/
def Section.Scripted (options : LexerOptions) (p : Position) (cs : List Char) : Section → Prop
  | .script => True
  | .front => atMarker options.marker.toList p cs = false
  | _ => False

variable {options : LexerOptions} {inside : Section} {p : Position}

theorem Section.Scripted.next {c : Char} {cs : List Char} (h : inside.Scripted options p (c :: cs)) :
    nextPiece options inside p c cs = ((scanCode false c cs).1, (scanCode false c cs).2, inside) := by
  cases inside with
  | script => rfl
  | front => rw [nextPiece, if_neg (by simp [show atMarker _ p (c :: cs) = false from h])]
  | text | code | finished => exact False.elim h

/-- Markers stand at the beginning of a line. -/
theorem Section.Scripted.within {cs ds : List Char} (h : inside.Scripted options p cs) {q : Position}
    (hq : 0 < q.column) : inside.Scripted options q ds := by
  cases inside with
  | script => trivial
  | front => simp [Section.Scripted, atMarker, Int.ne_of_gt hq]
  | text | code | finished => exact False.elim h

theorem lexFrom_scripted {c : Char} {cs : List Char} (h : inside.Scripted options p (c :: cs)) :
    lexFrom options inside p (c :: cs) =
      let lexeme := c :: cs.take (scanCode false c cs).2
      (lexFrom options inside (p.after lexeme) (cs.drop (scanCode false c cs).2)).behind
        [.piece ⟨(scanCode false c cs).1, lexeme, p⟩] := by
  have hne : inside ≠ .finished := by
    rintro rfl
    exact h
  rw [lexFrom_cons hne h.next]
  rfl

/-- By induction on the characters of the line: each piece ends in it. -/
theorem lexFrom_within (h : '\n' ∉ line) {rest : List Char} (hrest : ∀ c ∈ rest.head?, c = '\n')
    (hp : 0 ≤ p.column) (hinside : inside.Scripted options p (line ++ rest)) :
    lexFrom options inside p (line ++ rest) =
      (lexFrom options inside (p.after line) rest).behind (scriptItems p line) := by
  induction hn : line.length using Nat.strong_induction_on generalizing line p with
  | _ n ih =>
    cases line with
    | nil => simp [scriptItems, lexFrom_nil, atEnd, Lexed.behind]
    | cons c line =>
      have hscript : Section.script.Scripted {} p (c :: line) := trivial
      rw [List.mem_cons, not_or] at h
      obtain ⟨hc, hline⟩ := h
      have hscan : scanCode false c (line ++ rest) = scanCode false c line := by
        cases rest with
        | nil => rw [List.append_nil]
        | cons d rest => rw [hrest d rfl, scanCode_line (Ne.symm hc) hline]
      rw [List.cons_append] at hinside ⊢
      rw [scriptItems, lexFrom_scripted hinside, lexFrom_scripted hscript, hscan]
      have hmore := scanCode_le false c line
      generalize (scanCode false c line).2 = more at hmore
      have htake : '\n' ∉ c :: line.take more := by
        simpa [hc] using fun hmem => hline (List.mem_of_mem_take hmem)
      have hdrop : '\n' ∉ line.drop more := fun hmem => hline (List.mem_of_mem_drop hmem)
      have hplace : 0 < (p.after (c :: line.take more)).column := by
        rw [Position.after_of_not_mem htake]
        simp only [List.length_cons]
        omega
      have hlt : (line.drop more).length < n := by
        rw [List.length_drop, ← hn, List.length_cons]
        omega
      have hcut : p.after (c :: line) = (p.after (c :: line.take more)).after (line.drop more) := by
        rw [← Position.after_append, List.cons_append, List.take_append_drop]
      simp only [List.take_append_of_le_length hmore, List.drop_append_of_le_length hmore]
      rw [ih _ hlt hdrop (Int.le_of_lt hplace) (hinside.within hplace) rfl, hcut, Lexed.behind_behind]
      rfl

theorem lexFrom_feed {rest : List Char} (hinside : inside.Scripted options p ('\n' :: rest)) :
    lexFrom options inside p ('\n' :: rest) =
      (lexFrom options inside (p.after ['\n']) rest).behind (scriptItems p ['\n']) := by
  have hscript : Section.script.Scripted {} p ['\n'] := trivial
  have hscan (cs : List Char) : scanCode false '\n' cs = (spelled .newline ['\n'], 0) := rfl
  rw [scriptItems, lexFrom_scripted hinside, lexFrom_scripted hscript, hscan, hscan]
  simp [lexFrom_nil, atEnd, Lexed.behind]

/-- A line of a script, or of front matter. -/
theorem lexFrom_line (h : '\n' ∉ line) {rest : List Char} (hp : 0 ≤ p.column)
    (hinside : inside.Scripted options p (line ++ '\n' :: rest)) :
    lexFrom options inside p (line ++ '\n' :: rest) =
      (lexFrom options inside (p.after (line ++ ['\n'])) rest).behind
        (scriptItems p (line ++ ['\n'])) := by
  have hfeed (ds : List Char) : ∀ c ∈ ('\n' :: ds).head?, c = '\n' := by simp
  have hscript : Section.script.Scripted {} p (line ++ ['\n']) := trivial
  have hbehind : inside.Scripted options (p.after line) ('\n' :: rest) := by
    cases line with
    | nil => exact hinside
    | cons c line =>
      refine hinside.within ?_
      rw [Position.after_of_not_mem h, List.length_cons]
      show 0 < p.column + _
      omega
  have hitems : scriptItems p (line ++ ['\n']) =
      scriptItems p line ++ scriptItems (p.after line) ['\n'] := by
    rw [scriptItems, lexFrom_within h (hfeed []) hp hscript]
    rfl
  rw [lexFrom_within h (hfeed rest) hp hinside, lexFrom_feed hbehind, hitems, Position.after_append,
    Lexed.behind_behind]

theorem column_after_feed (p : Position) (line : List Char) : (p.after (line ++ ['\n'])).column = 0 := by
  rw [Position.after_append, Position.after_cons, Position.after_nil, Position.next, if_pos rfl]

theorem scriptItems_line (h : '\n' ∉ line) (hp : 0 ≤ p.column) (rest : List Char) :
    scriptItems p (line ++ '\n' :: rest) =
      scriptItems p (line ++ ['\n']) ++ scriptItems (p.after (line ++ ['\n'])) rest := by
  have hscript : Section.script.Scripted {} p (line ++ '\n' :: rest) := trivial
  rw [scriptItems, lexFrom_line h hp hscript]
  rfl

/-! ## Marker lines -/

/-- A marker has no line feed, so one at the start of a line ends in it. -/
theorem isPrefixOf_line {marker : List Char} (hmarker : '\n' ∉ marker) (line rest : List Char) :
    marker.isPrefixOf (line ++ '\n' :: rest) = marker.isPrefixOf line := by
  rw [Bool.eq_iff_iff, List.isPrefixOf_iff_prefix, List.isPrefixOf_iff_prefix]
  constructor
  · intro h
    rcases Nat.lt_or_ge line.length marker.length with hlt | hle
    · have hfront : line ++ ['\n'] <+: line ++ '\n' :: rest := ⟨rest, by simp⟩
      have hin := List.prefix_of_prefix_length_le hfront h (by simp; omega)
      exact absurd (hin.subset (by simp)) hmarker
    · exact List.prefix_of_prefix_length_le h (List.prefix_append line _) hle
  · exact fun h => h.trans (List.prefix_append line _)

theorem Lines.firstLine {lines : List (List Char)} (h : Lines (line :: lines)) :
    firstLine (line :: lines).flatten = line := by
  cases h with
  | last _ hline => simp [firstLine_of_not_mem hline]
  | cons hline => simp [firstLine_line hline]

/-- At the beginning of a line, it is looked whether it is a marker line. -/
theorem Lines.atMarker {lines : List (List Char)} (h : Lines (line :: lines)) {marker : List Char}
    (hmarker : '\n' ∉ marker) (hp : p.column = 0) :
    atMarker marker p (line :: lines).flatten = isMarkerLine marker line := by
  cases h with
  | last _ hline => simp [Stencil.atMarker, isMarkerLine, hp, takeWhile_of_not_mem hline]
  | @cons body _ hline =>
    have hblank : Text.isBlank '\n' = true := by decide
    rw [List.flatten_cons, List.append_assoc, List.singleton_append, Stencil.atMarker, hp,
      isPrefixOf_line hmarker, takeWhile_line (by decide), takeWhile_of_not_mem hline, isMarkerLine,
      isPrefixOf_line hmarker]
    rcases hfront : marker.isPrefixOf body with _ | _
    · simp
    · have hle := (List.isPrefixOf_iff_prefix.mp hfront).length_le
      simp [List.drop_append_of_le_length hle, hblank]

theorem Lines.ne_nil {lines : List (List Char)} (h : Lines (line :: lines)) : line ≠ [] := by
  cases h with
  | last hne => exact hne
  | cons => simp

theorem lexFrom_marker {lines : List (List Char)} (h : Lines (line :: lines))
    (hmarker : atMarker options.marker.toList p (line :: lines).flatten = true) :
    lexFrom options .front p (line :: lines).flatten =
      (lexFrom options (afterFrontMatter options) (p.after line) lines.flatten).behind
        [.piece ⟨.token .frontMatterMarker options.marker, line, p⟩] := by
  have hfirst := h.firstLine
  obtain ⟨c, line, rfl⟩ := List.exists_cons_of_ne_nil h.ne_nil
  rw [List.flatten_cons, List.cons_append] at hfirst hmarker ⊢
  have hpiece : nextPiece options .front p c (line ++ lines.flatten) =
      (.token .frontMatterMarker options.marker, line.length, afterFrontMatter options) := by
    rw [nextPiece, if_pos hmarker, hfirst, List.length_cons, Nat.add_sub_cancel]
  rw [lexFrom_cons Section.noConfusion hpiece]
  simp [Lexed.behind]

/-- Lines of front matter that are no marker lines are cut as a script is. -/
theorem lexFrom_lines {front tail : List (List Char)} (h : Lines (front ++ tail))
    (hfeed : '\n' ∉ options.marker.toList)
    (hmarker : ∀ line ∈ front, isMarkerLine options.marker.toList line = false)
    (hp : p.column = 0) :
    lexFrom options .front p (front ++ tail).flatten =
      (lexFrom options .front (p.after front.flatten) tail.flatten).behind
        (scriptItems p front.flatten) := by
  induction front generalizing p with
  | nil => simp [scriptItems, lexFrom_nil, atEnd, Lexed.behind]
  | cons line front ih =>
    have hinside : Section.front.Scripted options p (line :: (front ++ tail)).flatten :=
      (h.atMarker hfeed hp).trans (hmarker line List.mem_cons_self)
    rw [List.cons_append] at h ⊢
    generalize hall : front ++ tail = all at h ih hinside ⊢
    cases h with
    | last _ hline =>
      obtain ⟨rfl, rfl⟩ := List.append_eq_nil_iff.mp hall
      have hrest : ∀ c ∈ ([] : List Char).head?, c = '\n' := by simp
      have hlast := lexFrom_within hline hrest (Int.le_of_eq hp.symm) (by simpa using hinside)
      simpa using hlast
    | @cons body _ hline hrest =>
      have hle := Int.le_of_eq hp.symm
      have hfront := ih hrest (fun line hl => hmarker line (List.mem_cons_of_mem _ hl))
        (column_after_feed p body)
      simp only [List.flatten_cons, List.append_assoc, List.singleton_append] at hinside ⊢
      rw [lexFrom_line hline hle hinside, hfront, scriptItems_line hline hle front.flatten,
        Lexed.behind_behind, ← Position.after_append, List.append_assoc, List.singleton_append]

/-! ## Sources further down -/

/-- A place that is `m` lines further down. -/
def Position.down (m : Nat) (p : Position) : Position := ⟨p.line + m, p.column⟩

/-- A range that is `m` lines further down. -/
def Span.down (m : Nat) (s : Span) : Span := ⟨s.file, s.start.down m, s.stop.down m⟩

/-- A token that is `m` lines further down. -/
def Token.down (m : Nat) (t : Token) : Token := ⟨t.kind, t.value, t.start.down m, t.stop.down m⟩

/-- An item that is `m` lines further down. -/
def LexItem.down (m : Nat) : LexItem → LexItem
  | .piece p => .piece ⟨p.kind, p.lexeme, p.start.down m⟩
  | .complaint problem start stop => .complaint problem (start.down m) (stop.down m)

/-- What was cut, `m` lines further down. -/
def Lexed.down (m : Nat) (l : Lexed) : Lexed := ⟨l.items.map (LexItem.down m), l.stop.down m⟩

/-- A section of a source that is `m` lines further down. -/
def Section.down (m : Nat) : Section → Section
  | .code opened => .code (opened.down m)
  | inside => inside

variable {m : Nat}

theorem Position.after_down (p : Position) (cs : List Char) : (p.down m).after cs = (p.after cs).down m := by
  induction cs generalizing p with
  | nil => rfl
  | cons c cs ih =>
    have hnext : (p.down m).next c = (p.next c).down m := by
      unfold Position.next Position.down
      split
      · simp [Int.add_right_comm]
      · rfl
    rw [Position.after_cons, Position.after_cons, hnext, ih]

theorem Position.before_down (p q : Position) : (p.down m).before (q.down m) = p.before q := by
  show (decide (p.line + m < q.line + m) || (p.line + m == q.line + m && decide (p.column < q.column))) = _
  rw [Bool.eq_iff_iff, before]
  simp only [Bool.or_eq_true, Bool.and_eq_true, decide_eq_true_eq, beq_iff_eq]
  omega

theorem Position.before_of_line_lt {p q : Position} (h : p.line < q.line) : p.before q = true := by
  simp [Position.before, h]

theorem LexItem.token?_down (item : LexItem) :
    (item.down m).token? = item.token?.map (Token.down m) := by
  cases item with
  | complaint => rfl
  | piece p =>
    obtain ⟨kind, lexeme, start⟩ := p
    cases kind with
    | token => simp [LexItem.down, LexItem.token?, Token.down, Piece.stop, Position.after_down]
    | blank | comment | flaw => rfl

theorem LexItem.problem?_down (item : LexItem) :
    (item.down m).problem? = item.problem?.map fun x => (x.1, x.2.1.down m, x.2.2.down m) := by
  cases item with
  | complaint => rfl
  | piece p =>
    obtain ⟨kind, lexeme, start⟩ := p
    cases kind with
    | flaw => simp [LexItem.down, LexItem.problem?, Piece.stop, Position.after_down]
    | token | blank | comment => rfl

theorem filterMap_token?_down (items : List LexItem) :
    (items.map (LexItem.down m)).filterMap LexItem.token? =
      (items.filterMap LexItem.token?).map (Token.down m) := by
  rw [List.filterMap_map, List.map_filterMap]
  exact congrArg (List.filterMap · items) (funext LexItem.token?_down)

theorem Lexed.tokens_down (l : Lexed) : (l.down m).tokens = l.tokens.map (Token.down m) := by
  rw [Lexed.tokens, Lexed.down, filterMap_token?_down, Lexed.tokens, List.map_append]
  rfl

/-- A diagnostic `m` lines further down. -/
def Diagnostic.down (m : Nat) (d : Diagnostic) : Diagnostic := ⟨d.severity, d.span.down m, d.text⟩

theorem Lexed.diagnostics_down (l : Lexed) (file : Option String) :
    (l.down m).diagnostics file = (l.diagnostics file).map (Diagnostic.down m) := by
  simp only [Lexed.diagnostics, Lexed.down, List.filterMap_map, List.map_filterMap]
  refine congrArg (List.filterMap · l.items) (funext fun item => ?_)
  rw [Function.comp_apply, LexItem.problem?_down, Option.map_map, Option.map_map]
  rfl

/-- Front matter apart, what is cut off a source depends on its characters alone. -/
theorem nextPiece_down (options options' : LexerOptions) (hinside : inside ≠ .front) (p : Position) (c : Char)
    (cs : List Char) : nextPiece options' (inside.down m) (p.down m) c cs =
      let (kind, more, following) := nextPiece options inside p c cs
      (kind, more, following.down m) := by
  cases inside with
  | front => exact absurd rfl hinside
  | text =>
    simp only [Section.down, nextPiece]
    split <;> rfl
  | code opened =>
    simp only [Section.down, nextPiece]
    split <;> rfl
  | script | finished => rfl

/-- Front matter stands at the beginning only. -/
theorem nextPiece_ne_front (options : LexerOptions) (hinside : inside ≠ .front) (p : Position)
    (c : Char) (cs : List Char) :
    (nextPiece options inside p c cs).2.2 ≠ .front := by
  cases inside with
  | front => exact absurd rfl hinside
  | text =>
    simp only [nextPiece]
    split <;> exact Section.noConfusion
  | code opened =>
    simp only [nextPiece]
    split <;> exact Section.noConfusion
  | script | finished => exact Section.noConfusion

theorem lexFrom_down (options options' : LexerOptions) (hinside : inside ≠ .front) (p : Position)
    (cs : List Char) :
    lexFrom options' (inside.down m) (p.down m) cs = (lexFrom options inside p cs).down m := by
  induction hn : cs.length using Nat.strong_induction_on generalizing inside p cs with
  | _ n ih =>
    cases cs with
    | nil =>
      rw [lexFrom_nil, lexFrom_nil]
      cases inside with
      | front => exact absurd rfl hinside
      | text | code | script | finished => rfl
    | cons c cs =>
      by_cases hfinished : inside = .finished
      · subst hfinished
        rw [show Section.finished.down m = .finished from rfl, lexFrom_finished, lexFrom_finished]
        rfl
      have hfinished' : inside.down m ≠ .finished := by
        cases inside <;> simp_all [Section.down]
      have hfollowing := nextPiece_ne_front options hinside p c cs
      have hpiece' := nextPiece_down (m := m) options options' hinside p c cs
      generalize hpiece : nextPiece options inside p c cs = piece at hfollowing hpiece'
      obtain ⟨kind, more, following⟩ := piece
      have hlt : (cs.drop more).length < n := by
        rw [List.length_drop, ← hn, List.length_cons]
        omega
      rw [lexFrom_cons hfinished hpiece, lexFrom_cons hfinished' hpiece', Position.after_down,
        ih _ hlt hfollowing _ _ rfl]
      rfl

/-! ## Sources with front matter -/

/-- Lines with more behind them end with line feeds. -/
theorem Lines.after (front : List (List Char)) {tail : List (List Char)} (h : Lines (front ++ tail))
    (htail : tail ≠ []) (hp : p.column = 0) : p.after front.flatten = p.down front.length := by
  induction front generalizing p with
  | nil => simp [Position.down]
  | cons line front ih =>
    rw [List.cons_append] at h
    generalize hall : front ++ tail = all at h ih
    cases h with
    | last => exact absurd (List.append_eq_nil_iff.mp hall).2 htail
    | @cons body _ hline hrest =>
      rw [List.flatten_cons, Position.after_append, ih hrest (column_after_feed p body),
        Position.after_append, Position.after_of_not_mem hline]
      simp only [Position.after_cons, Position.after_nil, Position.next, if_true, Position.down, hp,
        List.length_cons, Position.mk.injEq, and_true]
      omega

section FrontMatter

variable {first : List Char} {lines : List (List Char)} (h : Lines (first :: lines))
  (hmode : options.mode = .frontMatterAndContent) (hfeed : '\n' ∉ options.marker.toList)
  (hfirst : isMarkerLine options.marker.toList first = true)

include h hmode hfeed hfirst

theorem lex_first :
    lex options (first :: lines).flatten =
      (lexFrom options .front (Position.start.after first) lines.flatten).behind
        [.piece ⟨.token .frontMatterMarker options.marker, first, .start⟩] := by
  have hmarker : atMarker options.marker.toList .start (first :: lines).flatten = true :=
    (h.atMarker hfeed rfl).trans hfirst
  have hlex : lex options (first :: lines).flatten = lexFrontMatter options (first :: lines).flatten := by
    rw [lex, hmode]
  rw [hlex, lexFrontMatter, if_pos hmarker, h.firstLine]
  simp [Lexed.behind]

/-- Front matter that no line closes is complained about. -/
theorem lex_unclosed (hnone : ∀ line ∈ lines, isMarkerLine options.marker.toList line = false) :
    ∃ stop, .complaint .markerMissing .start stop ∈ (lex options (first :: lines).flatten).items := by
  rw [lex_first h hmode hfeed hfirst]
  cases lines with
  | nil =>
    refine ⟨Position.start.after first, List.mem_cons_of_mem _ ?_⟩
    simp [lexFrom_nil, atEnd]
  | cons line lines =>
    have hplace : Position.start.after first = Position.start.down 1 := by
      simpa using h.after [first] (p := .start) (List.cons_ne_nil line lines) rfl
    have hrest : Lines ((line :: lines) ++ []) := by
      rw [List.append_nil]
      exact h.append_inv [first]
    have hcut := lexFrom_lines hrest hfeed hnone (p := Position.start.down 1) rfl
    rw [List.append_nil, List.flatten_nil, lexFrom_nil] at hcut
    rw [hplace, hcut]
    refine ⟨(Position.start.down 1).after (line :: lines).flatten, List.mem_cons_of_mem _ ?_⟩
    simp [Lexed.behind, atEnd]

/-- Front matter is a script up to the first line that closes it, and text stands behind. -/
theorem lex_closed {front behind : List (List Char)} {closing : List Char}
    (hlines : lines = front ++ closing :: behind)
    (hfront : ∀ line ∈ front, isMarkerLine options.marker.toList line = false)
    (hclosing : isMarkerLine options.marker.toList closing = true) (script : LexerOptions) :
    lex options (first :: lines).flatten =
      let q := Position.start.down (front.length + 1)
      (lexFrom options .text (q.after closing) behind.flatten).behind
        (.piece ⟨.token .frontMatterMarker options.marker, first, .start⟩ ::
          (((lexFrom script .script .start front.flatten).down 1).items ++
            [.piece ⟨.token .frontMatterMarker options.marker, closing, q⟩])) := by
  subst hlines
  have htail : front ++ closing :: behind ≠ [] := by simp
  have hrest : Lines (front ++ closing :: behind) := h.append_inv [first]
  have hbehind : Lines (closing :: behind) := hrest.append_inv front
  have hplace : Position.start.after first = Position.start.down 1 := by
    simpa using h.after [first] (p := .start) htail rfl
  have hplace' : (Position.start.down 1).after front.flatten = Position.start.down (front.length + 1) := by
    rw [hrest.after front (List.cons_ne_nil _ _) rfl]
    simp only [Position.down, Position.mk.injEq, and_true]
    omega
  have hmarker : atMarker options.marker.toList (Position.start.down (front.length + 1))
      (closing :: behind).flatten = true := (hbehind.atMarker hfeed rfl).trans hclosing
  have hscript : Section.script ≠ .front := Section.noConfusion
  have hitems : scriptItems (Position.start.down 1) front.flatten =
      ((lexFrom script .script .start front.flatten).down 1).items :=
    congrArg Lexed.items (lexFrom_down script {} hscript .start front.flatten)
  have hmode' : afterFrontMatter options = .text := by
    rw [afterFrontMatter, hmode]
    rfl
  rw [lex_first h hmode hfeed hfirst, hplace, lexFrom_lines hrest hfeed hfront rfl, hplace',
    lexFrom_marker hbehind hmarker, hitems, hmode', Lexed.behind_behind, Lexed.behind_behind]
  rfl

end FrontMatter

end Stencil
