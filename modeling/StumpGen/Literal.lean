import StumpGen.Fault
import StumpGen.Text.Blank
import StumpGen.Text.Numeral
import StumpGen.Text.Quoted

/-!
# Literals

A literal is the text of a number or character together with the kind of spelling it uses.
`Literal.ofToken` finds the kind, `Literal.value` reads the number, a signed integer of
64 bits, and `Literal.word` requires that it fits a target word, signed or unsigned.
-/

namespace StumpGen

/-- The spellings of a literal. -/
inductive Literal.Kind where
  /-- No spelling is known. -/
  | unknown
  /-- Decimal digits with an optional sign. -/
  | decimal
  /-- `0x` and hexadecimal digits. -/
  | hex
  /-- `0b` and binary digits. -/
  | binary
  /-- A character between single quotes. -/
  | char
  /-- `0o`, or a zero in front of further digits.  Recognised, but not supported. -/
  | octal
  deriving DecidableEq, Repr, Inhabited

/-- The name of a kind. -/
def Literal.Kind.name : Literal.Kind → Text
  | .unknown => "unknown"
  | .decimal => "decimal"
  | .hex => "hex"
  | .binary => "binary"
  | .char => "char"
  | .octal => "octal"

/-- A literal as written. -/
structure Literal where
  /-- How the text is spelled. -/
  kind : Literal.Kind := .unknown
  /-- The text. -/
  text : Text := []
  deriving DecidableEq, Repr, Inhabited

namespace Literal

/-- Why a literal has no value, or a value no word. -/
inductive Error where
  /-- There are no digits. -/
  | noDigits (text : Text)
  /-- The number does not fit 64 bits. -/
  | overflow (text : Text)
  /-- A character is no digit of the kind. -/
  | notNumber (kind : Kind) (text : Text)
  /-- A hexadecimal literal does not start with `0x`. -/
  | noHexMark (text : Text)
  /-- A binary literal has no room for its `0b`. -/
  | tooShort (text : Text)
  /-- A character literal is not one character between quotes. -/
  | notChar (text : Text)
  /-- Octal literals are not supported. -/
  | octal (text : Text)
  /-- The kind is not known. -/
  | noKind (text : Text)
  /-- The value does not fit a word. -/
  | notWord (value : Int)
  deriving DecidableEq, Repr, Inhabited

namespace Error

/-- A value that cannot be represented is unsupported; all else is malformed. -/
def code : Error → Code
  | .overflow _ | .octal _ | .notWord _ => .unsupportedConstant
  | _ => .malformedLiteral

/-- The text of an error. -/
def message : Error → Text
  | .noDigits t => "literal " ++ t.quoted ++ " has no digits"
  | .overflow t => "literal " ++ t ++ " overflows"
  | .notNumber k t => "literal " ++ t.quoted ++ " is not a valid " ++ k.name ++ " number"
  | .noHexMark t => "hex literal " ++ t.quoted ++ " lacks 0x prefix"
  | .tooShort t => "binary literal " ++ t.quoted ++ " is too short"
  | .notChar t => "unexpected char value " ++ t
  | .octal t => "octal literal " ++ t ++ " is not supported"
  | .noKind t => "literal " ++ t.quoted ++ " has no kind"
  | .notWord v => "value " ++ Text.ofInt v ++ " does not fit a 16-bit word"

/-- An error as a fault. -/
def fault (e : Error) : Fault := { code := e.code, message := e.message }

end Error

/-! ### Kinds -/

/-- Whether the text starts with a zero and the letter `mark`, in either case. -/
def hasMark (mark : UInt8) : Text → Bool
  | 48 :: b :: _ => b == mark || b + 32 == mark
  | _ => false

/-- The kind of a text that has no blanks at its ends. -/
def kindOf (t : Text) : Kind :=
  if t.head? = some 39 then .char
  else if hasMark 120 t then .hex
  else if hasMark 98 t then .binary
  else if hasMark 111 t then .octal
  else match t with
    | 48 :: d :: ds => if (d :: ds).all Text.isDigit then .octal else .decimal
    | _ => .decimal

/-- The literal of a token: blanks at its ends do not count. -/
def ofToken (t : Text) : Literal := { kind := kindOf t.trim, text := t.trim }

/-! ### Values -/

/-- The number that `digits` denotes in a base; `t` is the whole literal, of kind `k`. -/
def number (k : Kind) (base : Nat) (t digits : Text) : Except Error Int :=
  if digits.isEmpty then .error (.noDigits t)
  else match Numeral.readInt base digits with
    | .ok v => .ok v
    | .error .overflow => .error (.overflow t)
    | .error .malformed => .error (.notNumber k t)

/-- The code point of a character literal: exactly one rune between quotes. -/
def charValue (t : Text) : Except Error Int :=
  match t.runes with
  | [.scalar '\'', r, .scalar '\''] => .ok r.code
  | _ => .error (.notChar t)

/-- The value of a literal. -/
def value (l : Literal) : Except Error Int :=
  match l.kind with
  | .decimal => number .decimal 10 l.text l.text
  | .hex => if hasMark 120 l.text then number .hex 16 l.text (l.text.drop 2)
    else .error (.noHexMark l.text)
  | .binary => if l.text.length < 2 then .error (.tooShort l.text)
    else number .binary 2 l.text (l.text.drop 2)
  | .char => charValue l.text
  | .octal => .error (.octal l.text)
  | .unknown => .error (.noKind l.text)

/-- The least value of a word. -/
def minWord : Int := -32768

/-- The greatest value of a word. -/
def maxWord : Int := 65535

/-- A value that fits a word, signed or unsigned. -/
def checkWord (v : Int) : Except Error Int :=
  if minWord ≤ v ∧ v ≤ maxWord then .ok v else .error (.notWord v)

/-- The value of a literal that fits a word. -/
def word (l : Literal) : Except Error Int :=
  match l.value with
  | .ok v => checkWord v
  | .error e => .error e

end Literal

end StumpGen
