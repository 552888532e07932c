import StumpGen.Text.Rune

/-!
# Writing JSON

Reports and traces are written as JSON.  Strings escape what would be markup in a web page
(`<`, `>`, `&` and the two Unicode line ends) besides quotes, backslashes and control
characters, and a stray byte becomes the replacement character.  Objects keep the order of
their fields.
-/

namespace StumpGen

/-- A JSON value to be written. -/
inductive Json where
  /-- A string. -/
  | str (t : Text)
  /-- A number, already in decimal. -/
  | num (t : Text)
  /-- An array. -/
  | arr (items : List Json)
  /-- An object. -/
  | obj (fields : List (Text × Json))
  deriving Inhabited

namespace Json

/-- An integer. -/
def int (n : Int) : Json := .num (Text.ofInt n)

/-- A field of an object. -/
def field (name : String) (v : Json) : Text × Json := (name, v)

/-- A field that is left out unless `keep`. -/
def fieldIf (keep : Bool) (name : String) (v : Json) : List (Text × Json) :=
  if keep then [field name v] else []

/-- A character inside a string. -/
def escapeChar (c : Char) : Text :=
  match c.toNat with
  | 34 => "\\\""
  | 92 => "\\\\"
  | 8 => "\\b"
  | 9 => "\\t"
  | 10 => "\\n"
  | 12 => "\\f"
  | 13 => "\\r"
  | n =>
    if n < 32 ∨ n = 60 ∨ n = 62 ∨ n = 38 ∨ n = 0x2028 ∨ n = 0x2029 then
      "\\u" ++ Text.padZeros 4 (Text.hex n)
    else Text.ofChar c

/-- A rune inside a string. -/
def escapeRune : Rune → Text
  | .scalar c => escapeChar c
  | .stray _ => "\\ufffd"

/-- A string in quotes. -/
def string (t : Text) : Text := "\"" ++ t.runes.flatMap escapeRune ++ "\""

mutual

/-- A value on one line. -/
def compact : Json → Text
  | .str t => string t
  | .num t => t
  | .arr items => "[" ++ compactItems items ++ "]"
  | .obj fields => "\x7b" ++ compactFields fields ++ "\x7d"

/-- The items of an array, with commas between them. -/
def compactItems : List Json → Text
  | [] => []
  | [v] => v.compact
  | v :: vs => v.compact ++ "," ++ compactItems vs

/-- The fields of an object, with commas between them. -/
def compactFields : List (Text × Json) → Text
  | [] => []
  | [(k, v)] => string k ++ ":" ++ v.compact
  | (k, v) :: fs => string k ++ ":" ++ v.compact ++ "," ++ compactFields fs

end

/-- A new line, indented by two blanks per level. -/
def indentTo (level : Nat) : Text := Text.newline ++ Text.blanks (2 * level)

mutual

/-- A value over several lines, its inner lines indented by `level` and more. -/
def pretty (level : Nat) : Json → Text
  | .str t => string t
  | .num t => t
  | .arr [] => "[]"
  | .arr (v :: vs) => "[" ++ prettyItems (level + 1) (v :: vs) ++ indentTo level ++ "]"
  | .obj [] => "\x7b\x7d"
  | .obj (f :: fs) => "\x7b" ++ prettyFields (level + 1) (f :: fs) ++ indentTo level ++ "\x7d"

/-- The items of an array, one to a line. -/
def prettyItems (level : Nat) : List Json → Text
  | [] => []
  | [v] => indentTo level ++ v.pretty level
  | v :: vs => indentTo level ++ v.pretty level ++ "," ++ prettyItems level vs

/-- The fields of an object, one to a line. -/
def prettyFields (level : Nat) : List (Text × Json) → Text
  | [] => []
  | [(k, v)] => indentTo level ++ string k ++ ": " ++ v.pretty level
  | (k, v) :: fs => indentTo level ++ string k ++ ": " ++ v.pretty level ++ ","
      ++ prettyFields level fs

end

end Json

end StumpGen
