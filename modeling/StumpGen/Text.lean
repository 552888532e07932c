/-!
# Byte text

Names, literals and messages are sequences of bytes.  Most of them are UTF-8, but a program
may arrive in a binary document whose strings hold anything, and such a string has to reach
the listing and the diagnostics unchanged.  So text is a list of bytes (`Text`), a string
literal stands for its UTF-8 bytes (`Text.ofString`), and everything that looks at characters
goes through the decoder of `StumpGen.Text.Rune`.
-/

namespace StumpGen

/-- A text: a sequence of bytes, usually UTF-8. -/
abbrev Text := List UInt8

namespace Text

/-- The UTF-8 bytes of a string. -/
def ofString (s : String) : Text := s.toList.flatMap String.utf8EncodeChar

instance : Coe String Text := ⟨ofString⟩

/-- The bytes of one character. -/
def ofChar (c : Char) : Text := String.utf8EncodeChar c

/-- A natural number in decimal. -/
def ofNat (n : Nat) : Text := (Nat.toDigits 10 n).flatMap ofChar

/-- An integer in decimal, with a minus sign when negative. -/
def ofInt : Int → Text
  | .ofNat n => ofNat n
  | .negSucc n => "-" ++ ofNat (n + 1)

/-- The line feed. -/
def newline : Text := [10]

/-- `n` blanks. -/
def blanks (n : Nat) : Text := List.replicate n 32

/-- `t` padded with zeros on the left to `width` bytes. -/
def padZeros (width : Nat) (t : Text) : Text := List.replicate (width - t.length) 48 ++ t

/-- `t` padded with blanks on the left to `width` bytes. -/
def padLeft (width : Nat) (t : Text) : Text := blanks (width - t.length) ++ t

/-- `t` padded with blanks on the right to `width` bytes. -/
def padRight (width : Nat) (t : Text) : Text := t ++ blanks (width - t.length)

/-- The digits of `n` in lower-case hexadecimal. -/
def hex (n : Nat) : Text := (Nat.toDigits 16 n).flatMap ofChar

/-- A byte as two hexadecimal digits. -/
def hexByte (b : UInt8) : Text := padZeros 2 (hex b.toNat)

/-- The bytes of a text, two hexadecimal digits each. -/
def hexBytes (t : Text) : Text := t.flatMap hexByte

/-- The parts joined with `sep` between them. -/
def join (sep : Text) : List Text → Text
  | [] => []
  | [t] => t
  | t :: ts => t ++ sep ++ join sep ts

/-- Whether `t` starts with `p`. -/
def startsWith (t p : Text) : Bool := p.isPrefixOf t

/-- `t` without its leading `p`, if it starts so. -/
def dropPrefix? : Text → Text → Option Text
  | t, [] => some t
  | [], _ :: _ => none
  | b :: t, c :: p => if b = c then dropPrefix? t p else none

/-- Whether `t` ends with `p`. -/
def endsWith (t p : Text) : Bool := p.isSuffixOf t

/-- The pieces of `t` between the bytes equal to `sep`; there is always at least one. -/
def split (sep : UInt8) : Text → List Text
  | [] => [[]]
  | b :: t =>
    if b = sep then [] :: split sep t
    else match split sep t with
      | [] => [[b]]
      | p :: ps => (b :: p) :: ps

/-- Whether the byte is a decimal digit. -/
def isDigit (b : UInt8) : Bool := 48 ≤ b && b ≤ 57

/-- Whether the byte is an ASCII letter. -/
def isLetter (b : UInt8) : Bool := (97 ≤ b && b ≤ 122) || (65 ≤ b && b ≤ 90)

end Text

end StumpGen
