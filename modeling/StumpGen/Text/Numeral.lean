import StumpGen.Text

/-!
# Reading integers

`Numeral.readInt` reads an optionally signed number of 64 bits in a base up to 36.  It goes
through the digits from left to right and stops at the first fault, so a magnitude that leaves
64 bits is an overflow even when a bad character follows, and a bad character that comes first
is a malformed number.
-/

namespace StumpGen.Numeral

/-- Why a text is no number. -/
inductive Fault where
  /-- No digits, or a character that is no digit of the base. -/
  | malformed
  /-- The number does not fit 64 bits. -/
  | overflow
  deriving DecidableEq, Repr, Inhabited

/-- The value of a digit or letter, whatever the base. -/
def digitValue? (b : UInt8) : Option Nat :=
  if 48 ≤ b ∧ b ≤ 57 then some (b.toNat - 48)
  else if 97 ≤ b ∧ b ≤ 122 then some (b.toNat - 87)
  else if 65 ≤ b ∧ b ≤ 90 then some (b.toNat - 55)
  else none

/-- The value of a digit in a base. -/
def digitIn? (base : Nat) (b : UInt8) : Option Nat :=
  (digitValue? b).filter (· < base)

/-- The number of different words of 64 bits. -/
def wordCount : Nat := 0x10000000000000000

/-- The magnitude of the least signed number of 64 bits. -/
def signLimit : Nat := 0x8000000000000000

/-- Continues a magnitude that is `acc` so far. -/
def readDigits (base acc : Nat) : Text → Except Fault Nat
  | [] => .ok acc
  | b :: t =>
    match digitIn? base b with
    | none => .error .malformed
    | some d =>
      if acc * base + d < wordCount then readDigits base (acc * base + d) t
      else .error .overflow

/-- An unsigned number of at most 64 bits. -/
def readNat (base : Nat) : Text → Except Fault Nat
  | [] => .error .malformed
  | t => readDigits base 0 t

/-- A sign, if there is one, and the rest; `true` is minus. -/
def splitSign : Text → Bool × Text
  | 45 :: t => (true, t)
  | 43 :: t => (false, t)
  | t => (false, t)

/-- A signed number of 64 bits. -/
def readInt (base : Nat) (t : Text) : Except Fault Int :=
  let (negative, digits) := splitSign t
  match readNat base digits with
  | .error e => .error e
  | .ok n =>
    if negative then
      if n ≤ signLimit then .ok (-(n : Int)) else .error .overflow
    else
      if n < signLimit then .ok n else .error .overflow

/-! ### Numbers that name their base -/

/-- Whether underscores stand between digits only.  The flags say what was seen last. -/
def separates (isDigit : UInt8 → Bool) (afterDigit afterUnderscore : Bool) : Text → Bool
  | [] => !afterUnderscore
  | b :: t =>
    if isDigit b then separates isDigit true false t
    else if b = 95 then afterDigit && separates isDigit false true t
    else !afterUnderscore && separates isDigit false false t

/-- The base that a number names, and the digits after its mark: `0b`, `0o` and `0x`, or a zero
in front for octal. -/
def splitBase : Text → Nat × Text
  | 48 :: m :: d :: t =>
    if m = 98 ∨ m = 66 then (2, d :: t)
    else if m = 111 ∨ m = 79 then (8, d :: t)
    else if m = 120 ∨ m = 88 then (16, d :: t)
    else (8, m :: d :: t)
  | 48 :: t => (8, t)
  | t => (10, t)

/-- Whether the underscores of an unsigned number are well placed.  The mark of a base counts
as a digit. -/
def underscoresPlaced : Text → Bool
  | 48 :: m :: t =>
    if m = 120 ∨ m = 88 then separates (fun b => (digitIn? 16 b).isSome) true false t
    else if m = 98 ∨ m = 66 ∨ m = 111 ∨ m = 79 then separates Text.isDigit true false t
    else separates Text.isDigit false false (48 :: m :: t)
  | t => separates Text.isDigit false false t

/-- A signed number of 64 bits that names its base, with underscores between its digits if
wanted. -/
def readAny (t : Text) : Except Fault Int :=
  let (negative, body) := splitSign t
  if body = [] then .error .malformed
  else
    let (base, digits) := splitBase body
    match readDigits base 0 (digits.filter (· ≠ 95)) with
    | .error e => .error e
    | .ok n =>
      if body.contains 95 ∧ ¬ underscoresPlaced body then .error .malformed
      else if negative then
        if n ≤ signLimit then .ok (-(n : Int)) else .error .overflow
      else
        if n < signLimit then .ok n else .error .overflow

end StumpGen.Numeral
