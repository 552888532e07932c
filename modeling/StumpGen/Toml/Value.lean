import StumpGen.Text.Rune

/-!
# The parts of a TOML text

A TOML text is a sequence of lines that open a table or define a key.  Their order counts,
because it decides which definition of a key comes too late, so the lines are kept as they are
written (`Toml.Line`), and `StumpGen.Toml.Table` builds the tables from them.  Where the text
stops following the rules, a mistake stands in place of what cannot be read, and nothing comes
after it.  So what is in front of the mistake can still be looked at, and of several things that
are wrong the first one counts.
-/

namespace StumpGen

namespace Toml

/-- A dotted key: its parts in order. -/
abbrev Key := List Text

/-- Where reading stopped. -/
inductive Stop where
  /-- At the place with so many characters left. -/
  | here (remaining : Nat)
  /-- On the line before that place. -/
  | before (remaining : Nat)
  /-- At that place, behind a value that can be read but means nothing. -/
  | invalid (remaining : Nat) (detail : Text)
  deriving DecidableEq, Repr, Inhabited

/-- On the line before the end of the text. -/
def Stop.atEnd : Stop := .before 0

/-- What is wrong, if it is more than that the text does not follow the rules. -/
def Stop.detail : Stop → Text
  | .invalid _ d => d
  | .here _ | .before _ => []

/-- A value as written. -/
inductive Value where
  /-- A string. -/
  | string (text : Text)
  /-- An integer. -/
  | integer (value : Int)
  /-- A number with a fraction or an exponent, or one that is not finite.  No document uses
  its value, so that is not kept. -/
  | float
  /-- A truth value. -/
  | boolean (value : Bool)
  /-- A date, a time of day, or both.  No document uses its value. -/
  | datetime
  /-- Values in brackets. -/
  | array (items : List Value)
  /-- Definitions in braces; with each key stands how many characters follow it. -/
  | inline (entries : List (Key × Nat × Value))
  /-- A mistake. -/
  | broken (stop : Stop)
  deriving Repr, Inhabited

/-- A line of a TOML text.  With each key stands how many characters of the text follow it,
which tells its place. -/
inductive Line where
  /-- Opens a table. -/
  | table (key : Key) (remaining : Nat)
  /-- Opens a further table of a list of tables. -/
  | item (key : Key) (remaining : Nat)
  /-- Defines a key. -/
  | define (key : Key) (remaining : Nat) (value : Value)
  /-- A mistake. -/
  | broken (stop : Stop)
  deriving Repr, Inhabited

/-! ### Keys as text -/

/-- Whether the character may stand in a key without quotes. -/
def isBare (b : UInt8) : Bool := Text.isLetter b || Text.isDigit b || b == 95 || b == 45

/-- A byte between basic quotes: quotes, backslashes and control characters are escaped. -/
def escapeByte (b : UInt8) : Text :=
  if b = 34 then "\\\""
  else if b = 92 then "\\\\"
  else if b = 8 then "\\b"
  else if b = 9 then "\\t"
  else if b = 10 then "\\n"
  else if b = 12 then "\\f"
  else if b = 13 then "\\r"
  else if b < 32 ∨ b = 127 then "\\u00" ++ Text.hexByte b
  else [b]

/-- A text between basic quotes. -/
def quoted (t : Text) : Text := "\"" ++ t.flatMap escapeByte ++ "\""

/-- A part of a key, in quotes unless it can stand without. -/
def partText (t : Text) : Text := if t ≠ [] ∧ t.all isBare then t else quoted t

/-- A key as written. -/
def Key.text (k : Key) : Text := Text.join "." (k.map partText)

/-! ### Errors -/

/-- How a key is in conflict with earlier ones. -/
inductive Clash where
  /-- It should be a table and is something else. -/
  | notTable (key : Key)
  /-- It should be a list of tables and is something else. -/
  | notList (key : Key)
  /-- It is already defined. -/
  | defined (key : Key)
  deriving DecidableEq, Repr, Inhabited

/-- The text of a conflict. -/
def Clash.message : Clash → Text
  | .notTable k => "Key '" ++ k.text ++ "' was already created as a hash."
  | .notList k => "Key '" ++ k.text ++ "' was already created and cannot be used as an array."
  | .defined k => "Key '" ++ k.text ++ "' has already been defined."

/-- Why a text is not accepted. -/
inductive Error where
  /-- The text breaks the rules of the format at this line. -/
  | malformed (line : Nat) (detail : Text)
  /-- A key is in conflict with earlier ones at this line. -/
  | conflict (line : Nat) (clash : Clash)
  deriving DecidableEq, Repr, Inhabited

namespace Error

/-- The line of an error. -/
def line : Error → Nat
  | .malformed n _ | .conflict n _ => n

/-- What is wrong there. -/
def detail : Error → Text
  | .malformed _ d => d
  | .conflict _ c => c.message

/-- The text of an error. -/
def message (e : Error) : Text := "line " ++ Text.ofNat e.line ++ ": " ++ e.detail

end Error

end Toml

end StumpGen
