/-! # Text

Documents are sequences of UTF-16 code units: offsets, columns and lengths count units, and a
cooked string may hold half of a surrogate pair. The file holds

* `CodeUnit`, `Text` and `Text.ofString`, which encodes a character above U+FFFF as a pair,
* `Text.toString?`, which reads the characters back and fails at a half pair,
* `Text.ofNat`, `padLeft`, `padRight`, `trimRight` and `sort`, what rendering needs of text.
-/

namespace GraphQL

set_option autoImplicit false

abbrev CodeUnit := UInt16

/-- A text: any sequence of code units, well formed or not. -/
abbrev Text := List CodeUnit

def unit (c : Char) : CodeUnit := UInt16.ofNat c.toNat

/-- The code units of a character: two from U+10000 on. -/
def unitsOf (c : Char) : Text :=
  if c.toNat < 0x10000 then [unit c]
  else [UInt16.ofNat (0xD800 + (c.toNat - 0x10000) / 0x400), UInt16.ofNat (0xDC00 + c.toNat % 0x400)]

def isHighSurrogate (u : CodeUnit) : Bool := 0xD800 ≤ u && u < 0xDC00

def isLowSurrogate (u : CodeUnit) : Bool := 0xDC00 ≤ u && u < 0xE000

def pairedChar (high low : CodeUnit) : Char :=
  Char.ofNat (0x10000 + (high.toNat - 0xD800) * 0x400 + (low.toNat - 0xDC00))

namespace Text

def ofString (s : String) : Text := s.toList.flatMap unitsOf

instance : Coe String Text := ⟨ofString⟩

/-- The characters of a text, unless it holds half of a surrogate pair. -/
def toChars? : Text → Option (List Char)
  | [] => some []
  | u :: rest =>
    if isHighSurrogate u then
      match rest with
      | [] => none
      | v :: rest => if isLowSurrogate v then (toChars? rest).map (pairedChar u v :: ·) else none
    else if isLowSurrogate u then none
    else (toChars? rest).map (Char.ofNat u.toNat :: ·)

/-- The string of a text, unless it holds half of a surrogate pair. -/
def toString? (t : Text) : Option String := (toChars? t).map String.ofList

/-- The decimal numeral of a number. -/
def ofNat (n : Nat) : Text := (Nat.toDigits 10 n).map unit

/-- At least `width` units, blanks in front. -/
def padLeft (width : Nat) (t : Text) : Text := t.leftpad width (unit ' ')

/-- At least `width` units, blanks behind. -/
def padRight (width : Nat) (t : Text) : Text := t.rightpad width (unit ' ')

/-- White space: tab, line terminators, the byte order mark and the Unicode space separators. -/
def isSpace (u : CodeUnit) : Bool :=
  (0x09 ≤ u && u ≤ 0x0D) || u == 0x20 || u == 0xA0 || u == 0x1680 || (0x2000 ≤ u && u ≤ 0x200A) ||
    u == 0x2028 || u == 0x2029 || u == 0x202F || u == 0x205F || u == 0x3000 || u == 0xFEFF

/-- The text without the white space it ends in. -/
def trimRight (t : Text) : Text := (t.reverse.dropWhile isSpace).reverse

def sort (texts : List Text) : List Text := texts.mergeSort fun a b => decide (a ≤ b)

end Text

end GraphQL
