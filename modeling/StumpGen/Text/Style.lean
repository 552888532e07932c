import StumpGen.Text

/-!
# Coloured text

Terminals take the look of a text from escape sequences.  A style is a list of attributes; it
is switched on in front of a text, and each attribute is taken back after it.
-/

namespace StumpGen

/-- An attribute of text on a terminal. -/
inductive Attribute where
  /-- Bold letters. -/
  | bold
  /-- Red letters. -/
  | red
  /-- Green letters. -/
  | green
  /-- Yellow letters. -/
  | yellow
  /-- Blue letters. -/
  | blue
  /-- Cyan letters. -/
  | cyan
  /-- Gray letters. -/
  | gray
  deriving DecidableEq, Repr, Inhabited

namespace Attribute

/-- The number that switches an attribute on. -/
def code : Attribute → Nat
  | .bold => 1
  | .red => 31
  | .green => 32
  | .yellow => 33
  | .blue => 34
  | .cyan => 36
  | .gray => 90

/-- The number that takes an attribute back: bold has its own, a colour takes back all. -/
def reset : Attribute → Nat
  | .bold => 22
  | _ => 0

end Attribute

/-- The look of a text. -/
abbrev Style := List Attribute

namespace Style

/-- An escape sequence with the given numbers. -/
def sequence (codes : List Nat) : Text := "\x1b[" ++ Text.join ";" (codes.map Text.ofNat) ++ "m"

/-- A text in a style, if styles are shown. -/
def paint (s : Style) (shown : Bool) (t : Text) : Text :=
  if shown then sequence (s.map Attribute.code) ++ t ++ sequence (s.map Attribute.reset) else t

end Style

end StumpGen
