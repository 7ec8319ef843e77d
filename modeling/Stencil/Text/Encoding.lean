import Stencil.Fault
import Stencil.Text.CodePage
import Stencil.Text.Surrogate

/-!
# Reading bytes as text

The encodings in which template files may be written, and the line ends of
files. Decoding fails at the first byte that begins no character; the failure
says which bytes are at fault and why.
-/

namespace Stencil.Text

/-- The order of the two bytes of a unit. -/
inductive ByteOrder where
  | little
  | big
deriving DecidableEq

/-- An encoding of text as bytes. -/
inductive Encoding where
  | utf8
  /-- with a mark in front that is no part of the text -/
  | markedUtf8
  | latin1
  | codePage (page : CodePage)
  | ascii
  /-- in the order that a mark in front says, or in a given order -/
  | utf16 (order : Option ByteOrder)
  /-- likewise, with four bytes to a character -/
  | utf32 (order : Option ByteOrder)
  /-- one that makes bytes of bytes, and no text -/
  | binary (name : String)
  /-- none that there is -/
  | unknown (name : String)
deriving DecidableEq

/-- The name under which an encoding reports. -/
def Encoding.name : Encoding → String
  | .utf8 | .markedUtf8 => "utf-8"
  | .latin1 => "latin-1"
  | .codePage _ => "charmap"
  | .ascii => "ascii"
  | .utf16 (some .big) => "utf-16-be"
  | .utf16 _ => "utf-16-le"
  | .utf32 (some .big) => "utf-32-be"
  | .utf32 _ => "utf-32-le"
  | .binary name | .unknown name => name

/-- A name of an encoding in the form in which names are compared: in small
letters, with one underscore where other characters than letters, digits and
points stand. -/
def plainName : List Char → List Char
  | [] => []
  | c :: cs =>
    if c.isAlphanum || c = '.' then c.toLower :: plainName cs
    else
      match plainName cs with
      | '_' :: rest => '_' :: rest
      | rest => '_' :: rest

/-- The encoding of a name. -/
def Encoding.named (name : String) : Encoding :=
  let plain := String.ofList (plainName name.toList)
  if ["utf_8", "utf8", "u8", "utf", "cp65001"].contains plain then .utf8
  else if plain = "utf_8_sig" then .markedUtf8
  else if ["latin_1", "latin1", "latin", "l1", "iso8859_1", "iso_8859_1", "iso8859", "8859",
      "cp819", "ibm819", "iso_ir_100"].contains plain then .latin1
  else if ["ascii", "us_ascii", "us", "646", "cp367", "ibm367", "iso646_us"].contains plain then
    .ascii
  else if ["utf_16", "utf16", "u16"].contains plain then .utf16 none
  else if ["utf_16_le", "utf_16le"].contains plain then .utf16 (some .little)
  else if ["utf_16_be", "utf_16be"].contains plain then .utf16 (some .big)
  else if ["utf_32", "utf32", "u32"].contains plain then .utf32 none
  else if ["utf_32_le", "utf_32le"].contains plain then .utf32 (some .little)
  else if ["utf_32_be", "utf_32be"].contains plain then .utf32 (some .big)
  else if ["rot13", "rot_13", "hex", "hex_codec", "base64", "base_64", "base64_codec", "bz2",
      "bz2_codec", "zip", "zlib", "zlib_codec", "quopri", "quopri_codec", "quoted_printable",
      "quotedprintable", "uu", "uu_codec"].contains plain then .binary name
  else
    match codePages.find? fun page => page.names.contains plain with
    | some page => .codePage page
    | none => .unknown name

/-- Why bytes are no text: the first byte at fault, how many there are, and the
reason. -/
structure DecodeError where
  encoding : Encoding
  byte : UInt8
  start : Nat
  count : Nat
  reason : String

/-- The wording of a decoding failure. -/
def DecodeError.message (e : DecodeError) : String :=
  let what :=
    if e.count == 1 then
      let digits := Nat.toDigits 16 e.byte.toNat
      "byte 0x" ++ String.ofList (List.replicate (2 - digits.length) '0' ++ digits) ++
        " in position " ++ toString e.start
    else "bytes in position " ++ toString e.start ++ "-" ++ toString (e.start + e.count - 1)
  "'" ++ e.encoding.name ++ "' codec can't decode " ++ what ++ ": " ++ e.reason

/-- A byte that continues a character. -/
def isContinuation (b : UInt8) : Bool := 0x80 ≤ b && b < 0xc0

/-- Whether `second` may follow the lead byte `first`: it continues a character
and the two do not begin an overlong form, a surrogate or a code point beyond
the last. -/
def mayFollow (first second : UInt8) : Bool :=
  isContinuation second &&
    !(first == 0xe0 && second < 0xa0) && !(first == 0xed && 0xa0 ≤ second) &&
    !(first == 0xf0 && second < 0x90) && !(first == 0xf4 && 0x90 ≤ second)

/-- How many bytes the character of a lead byte takes; none for no lead byte. -/
def sequenceLength? (first : UInt8) : Option Nat :=
  if first < 0x80 then some 1
  else if first < 0xc2 then none
  else if first < 0xe0 then some 2
  else if first < 0xf0 then some 3
  else if first < 0xf5 then some 4
  else none

/-- How many of the bytes after `first` fit the character it begins, and whether
a byte that does not fit stopped the count. -/
def fitting (first : UInt8) : Nat → Bool → List UInt8 → Nat × Bool
  | 0, _, _ => (0, false)
  | _ + 1, _, [] => (0, false)
  | n + 1, isSecond, b :: bs =>
    if if isSecond then mayFollow first b else isContinuation b then
      let (count, stopped) := fitting first n false bs
      (count + 1, stopped)
    else (0, true)

/-- The code point of a lead byte and its continuation bytes. -/
def sequencePoint (first : UInt8) (rest : List UInt8) : Nat :=
  let lead := if rest.length == 0 then first.toNat
    else if rest.length == 1 then first.toNat % 0x20
    else if rest.length == 2 then first.toNat % 0x10
    else first.toNat % 0x08
  rest.foldl (fun n b => 0x40 * n + b.toNat % 0x40) lead

/-- Decodes UTF-8 from byte `start` on. `fuel` bounds the number of characters;
the number of bytes is enough. -/
def decodeUtf8From : Nat → Nat → List UInt8 → Except DecodeError (List Char)
  | 0, _, _ => .ok []
  | _, _, [] => .ok []
  | fuel + 1, start, first :: rest =>
    match sequenceLength? first with
    | none => .error ⟨.utf8, first, start, 1, "invalid start byte"⟩
    | some length =>
      let (fit, stopped) := fitting first (length - 1) true rest
      if fit == length - 1 then do
        let cs ← decodeUtf8From fuel (start + length) (rest.drop (length - 1))
        return Char.ofNat (sequencePoint first (rest.take (length - 1))) :: cs
      else if stopped then .error ⟨.utf8, first, start, fit + 1, "invalid continuation byte"⟩
      else .error ⟨.utf8, first, start, fit + 1, "unexpected end of data"⟩

/-- Decodes bytes that are code points. -/
def decodeAsciiFrom (start : Nat) : List UInt8 → Except DecodeError (List Char)
  | [] => .ok []
  | b :: bs =>
    if b < 0x80 then do
      let cs ← decodeAsciiFrom (start + 1) bs
      return Char.ofNat b.toNat :: cs
    else .error ⟨.ascii, b, start, 1, "ordinal not in range(128)"⟩

/-- Decodes bytes that a code page gives characters. -/
def decodePageFrom (page : CodePage) (start : Nat) : List UInt8 → Except DecodeError (List Char)
  | [] => .ok []
  | b :: bs =>
    match page.character? b with
    | some c => do return c :: (← decodePageFrom page (start + 1) bs)
    | none => .error ⟨.codePage page, b, start, 1, "character maps to <undefined>"⟩

/-- The unit of two bytes. -/
def unitOf (order : ByteOrder) (first second : UInt8) : Nat :=
  match order with
  | .little => first.toNat + 0x100 * second.toNat
  | .big => 0x100 * first.toNat + second.toNat

/-- Decodes units of two bytes from byte `start` on; two halves of a pair are one
character. -/
def decodeUnitsFrom (order : ByteOrder) (start : Nat) :
    List UInt8 → Except DecodeError (List Char)
  | [] => .ok []
  | [b] => .error ⟨.utf16 (some order), b, start, 1, "truncated data"⟩
  | a :: b :: rest =>
    let unit := unitOf order a b
    let fault (count : Nat) (reason : String) : Except DecodeError (List Char) :=
      .error ⟨.utf16 (some order), a, start, count, reason⟩
    if isSecondSurrogate unit then fault 2 "illegal encoding"
    else if isFirstSurrogate unit then
      match rest with
      | c :: d :: more =>
        let other := unitOf order c d
        if isSecondSurrogate other then do
          let cs ← decodeUnitsFrom order (start + 4) more
          return Char.ofNat (0x10000 + 0x400 * (unit - 0xd800) + (other - 0xdc00)) :: cs
        else fault 2 "illegal UTF-16 surrogate"
      | rest => fault (2 + rest.length) "unexpected end of data"
    else do
      let cs ← decodeUnitsFrom order (start + 2) rest
      return Char.ofNat unit :: cs

/-- Decodes code points of four bytes from byte `start` on. -/
def decodeWideFrom (order : ByteOrder) (start : Nat) : List UInt8 → Except DecodeError (List Char)
  | [] => .ok []
  | a :: b :: c :: d :: rest =>
    let point :=
      match order with
      | .little => unitOf order a b + 0x10000 * unitOf order c d
      | .big => 0x10000 * unitOf order a b + unitOf order c d
    let fault (reason : String) : Except DecodeError (List Char) :=
      .error ⟨.utf32 (some order), a, start, 4, reason⟩
    if 0x110000 ≤ point then fault "code point not in range(0x110000)"
    else if isSurrogate point then
      fault "code point in surrogate code point range(0xd800, 0xe000)"
    else do return Char.ofNat point :: (← decodeWideFrom order (start + 4) rest)
  | a :: rest => .error ⟨.utf32 (some order), a, start, 1 + rest.length, "truncated data"⟩

/-- What a decoding came to, with its failure as a fault. -/
def reported (r : Except DecodeError (List Char)) : Except Fault (List Char) :=
  r.mapError fun e => .undecodable e.message

/-- The text of bytes without the mark that should say the order of bytes. There is
none, unless there are no bytes; but bytes that are no text in themselves fail first. -/
def withoutMark (name : String) (bytes : List UInt8) (r : Except DecodeError (List Char)) :
    Except Fault (List Char) := do
  let cs ← reported r
  if bytes.isEmpty then return cs else throw (.noByteOrderMark name)

/-- The text that bytes write in an encoding. -/
def Encoding.decode (encoding : Encoding) (bytes : List UInt8) : Except Fault (List Char) :=
  match encoding with
  | .utf8 => reported (decodeUtf8From bytes.length 0 bytes)
  | .markedUtf8 =>
    match bytes with
    | 0xef :: 0xbb :: 0xbf :: rest => reported (decodeUtf8From rest.length 0 rest)
    | [0xef] | [0xef, 0xbb] => .ok []
    | bytes => reported (decodeUtf8From bytes.length 0 bytes)
  | .latin1 => .ok (bytes.map fun b => Char.ofNat b.toNat)
  | .codePage page => reported (decodePageFrom page 0 bytes)
  | .ascii => reported (decodeAsciiFrom 0 bytes)
  | .utf16 none =>
    match bytes with
    | 0xff :: 0xfe :: rest => reported (decodeUnitsFrom .little 2 rest)
    | 0xfe :: 0xff :: rest => reported (decodeUnitsFrom .big 2 rest)
    | bytes => withoutMark "UTF-16" bytes (decodeUnitsFrom .little 0 bytes)
  | .utf16 (some order) => reported (decodeUnitsFrom order 0 bytes)
  | .utf32 none =>
    match bytes with
    | 0xff :: 0xfe :: 0 :: 0 :: rest => reported (decodeWideFrom .little 4 rest)
    | 0 :: 0 :: 0xfe :: 0xff :: rest => reported (decodeWideFrom .big 4 rest)
    | bytes => withoutMark "UTF-32" bytes (decodeWideFrom .little 0 bytes)
  | .utf32 (some order) => reported (decodeWideFrom order 0 bytes)
  | .binary name => .error (.binaryEncoding name)
  | .unknown name => .error (.unknownEncoding name)

/-- Every line end as a line feed: a carriage return, alone or before a line
feed, becomes one. -/
def unifyLineEnds : List Char → List Char
  | [] => []
  | '\r' :: '\n' :: rest => '\n' :: unifyLineEnds rest
  | c :: rest => (if c = '\r' then '\n' else c) :: unifyLineEnds rest

end Stencil.Text
