import Stencil.Fault

/-!
# Colours on a terminal

Reports may be coloured with escape sequences. Every helper takes whether
colours are on, and gives plain text when they are off. `strip` takes escape
sequences out of a text again.
-/

namespace Stencil

/-- What a piece of text can be made to look like. -/
inductive Style where
  | reset
  | bold
  | dim
  | yellow
  | cyan
  | green
  | brightRed
  | brightYellow
  | brightBlue
deriving DecidableEq

/-- The number that selects a style. -/
def Style.number : Style → Nat
  | .reset => 0
  | .bold => 1
  | .dim => 2
  | .yellow => 33
  | .cyan => 36
  | .green => 32
  | .brightRed => 91
  | .brightYellow => 93
  | .brightBlue => 94

/-- The name of a style. -/
def Style.name : Style → String
  | .reset => "reset"
  | .bold => "bold"
  | .dim => "dim"
  | .yellow => "yellow"
  | .cyan => "cyan"
  | .green => "green"
  | .brightRed => "bright_red"
  | .brightYellow => "bright_yellow"
  | .brightBlue => "bright_blue"

/-- All styles. -/
def Style.all : List Style :=
  [.reset, .bold, .dim, .yellow, .cyan, .green, .brightRed, .brightYellow, .brightBlue]

/-- The style of a name. -/
def Style.named (name : String) : Except Fault Style :=
  match Style.all.find? fun s => s.name == name with
  | some s => .ok s
  | none => .error (.missingKey name)

/-- The escape sequence that selects a style. -/
def Style.sequence (s : Style) : String :=
  "\x1b[" ++ toString s.number ++ "m"

namespace Terminal

/-! ## Colouring -/

/-- A text in the given styles, ended by a reset. -/
def colorize (colors : Bool) (styles : List Style) (text : String) : String :=
  if colors && !styles.isEmpty then
    String.join (styles.map Style.sequence) ++ text ++ Style.reset.sequence
  else text

/-- A text in styles that are given by name. A name that no style has is a fault,
unless colours are off. -/
def colorizeBy (colors : Bool) (names : List String) (text : String) : Except Fault String :=
  if colors then do return colorize colors (← names.mapM Style.named) text else .ok text

/-- A severity: errors red, warnings yellow, the rest dim. -/
def severity (colors : Bool) (label : String) : String :=
  if label = "error" then colorize colors [.brightRed, .bold] label
  else if label = "warning" then colorize colors [.brightYellow, .bold] label
  else colorize colors [.dim] label

/-- The place of a report. -/
def location (colors : Bool) (text : String) : String := colorize colors [.cyan] text

/-- The word before a hint. -/
def hint (colors : Bool) (text : String) : String := colorize colors [.green] text

/-- What should not catch the eye. -/
def dim (colors : Bool) (text : String) : String := colorize colors [.dim] text

/-- The mark under a column. -/
def caret (colors : Bool) (text : String) : String := colorize colors [.brightRed] text

/-- A number at the right of at least three columns. -/
def lineNumber (n : Int) : String :=
  let text := toString n
  String.ofList (List.replicate (3 - text.length) ' ') ++ text

/-- A line of a source behind its number; the line in question is marked. -/
def sourceLine (colors : Bool) (number : Int) (content : String) (inQuestion : Bool) : String :=
  colorize colors [.yellow] ((if inQuestion then ">" else " ") ++ lineNumber number) ++ " | " ++
    if inQuestion then colorize colors [.brightRed] content else dim colors content

/-! ## Deciding on colours -/

/-- What the environment says about colours. -/
structure Environment where
  forceColor : Option String := none
  noColor : Option String := none
  isTerminal : Bool := false

/-- A wish is there when it is set to something. -/
def isSet (wish : Option String) : Bool :=
  match wish with
  | some text => text != ""
  | none => false

/-- Colours are on when forced, else off when refused, else on for a terminal. -/
def detect (e : Environment) : Bool :=
  if isSet e.forceColor then true
  else if isSet e.noColor then false
  else e.isTerminal

/-! ## Taking escape sequences out -/

/-- The character that starts an escape sequence. -/
def escape : Char := '\x1b'

/-- Whether a code point lies between two others, both included. -/
def between (low high : Char) (c : Char) : Bool := low ≤ c && c ≤ high

/-- A character that ends a sequence of two. -/
def isSingle (c : Char) : Bool := between '@' 'Z' c || between '\\' '_' c

/-- What remains after the rest of an escape sequence, if one stands here: a
single character, or a bracket with parameters, intermediates and a final. -/
def afterSequence? : List Char → Option (List Char)
  | [] => none
  | '[' :: cs =>
    match (cs.dropWhile (between '0' '?')).dropWhile (between ' ' '/') with
    | [] => none
    | c :: rest => if between '@' '~' c then some rest else none
  | c :: rest => if isSingle c then some rest else none

theorem length_dropWhile_le (p : Char → Bool) (cs : List Char) :
    (cs.dropWhile p).length ≤ cs.length := by
  induction cs with
  | nil => simp
  | cons c cs ih =>
    simp only [List.dropWhile_cons]
    split
    · simp only [List.length_cons]; omega
    · simp

theorem length_of_afterSequence? {cs rest : List Char} (h : afterSequence? cs = some rest) :
    rest.length < cs.length := by
  unfold afterSequence? at h
  split at h
  · simp at h
  · rename_i cs
    split at h
    · simp at h
    · rename_i c after heq
      have h₁ := length_dropWhile_le (between ' ' '/') (cs.dropWhile (between '0' '?'))
      have h₂ := length_dropWhile_le (between '0' '?') cs
      rw [heq] at h₁
      split at h <;> simp_all
      omega
  · split at h <;> simp_all

/-- A text without its escape sequences. -/
def stripChars : List Char → List Char
  | [] => []
  | c :: cs =>
    if c = escape then
      match h : afterSequence? cs with
      | some rest =>
        have := length_of_afterSequence? h
        stripChars rest
      | none => c :: stripChars cs
    else c :: stripChars cs
termination_by cs => cs.length
decreasing_by all_goals simp only [List.length_cons]; omega

/-- A string without its escape sequences. -/
def strip (text : String) : String := String.ofList (stripChars text.toList)

end Terminal

end Stencil
