import StumpGen.Text.Printable
import StumpGen.Text.Rune

/-!
# Quoted text

Messages show a text between double quotes and a character between single quotes.  Printable
characters stand for themselves, the usual control characters have one-letter escapes, other
ASCII characters and stray bytes are written with two hexadecimal digits, all others with four
or eight.
-/

namespace StumpGen.Text

/-- The escape of a character that is not printable. -/
def escapeCode (n : Nat) : Text :=
  if n < 0x80 then "\\x" ++ padZeros 2 (hex n)
  else if n < 0x10000 then "\\u" ++ padZeros 4 (hex n)
  else "\\U" ++ padZeros 8 (hex n)

/-- A character inside quotes of the given kind. -/
def quoteChar (quote : Char) (c : Char) : Text :=
  if c = quote ∨ c = '\\' then "\\" ++ ofChar c
  else if CodeTable.printable.contains c.toNat then ofChar c
  else match c.toNat with
    | 7 => "\\a"
    | 8 => "\\b"
    | 9 => "\\t"
    | 10 => "\\n"
    | 11 => "\\v"
    | 12 => "\\f"
    | 13 => "\\r"
    | n => escapeCode n

/-- A rune inside quotes of the given kind. -/
def quoteRune (quote : Char) : Rune → Text
  | .scalar c => quoteChar quote c
  | .stray b => "\\x" ++ hexByte b

/-- A text between double quotes. -/
def quoted (t : Text) : Text := "\"" ++ (runes t).flatMap (quoteRune '"') ++ "\""

/-- A character between single quotes. -/
def quotedChar (c : Char) : Text := "'" ++ quoteChar '\'' c ++ "'"

end StumpGen.Text
