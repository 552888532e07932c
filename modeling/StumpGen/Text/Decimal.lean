import StumpGen.Text

/-!
# Decimals with fixed places

`Decimal.ofRatio` writes a quotient of integers with a fixed number of places, rounded to the
nearest one and at a tie to the even neighbour.  `Decimal.ofFloat` does so for a floating point
number, starting from its exact value.
-/

namespace StumpGen.Decimal

/-- The nearest integer to `num / den`, at a tie the even one. -/
def roundDiv (num den : Nat) : Nat :=
  let q := num / den
  let twice := 2 * (num % den)
  if den < twice ∨ (twice = den ∧ q % 2 = 1) then q + 1 else q

/-- A number of units of `10 ^ -places` with the point in its place. -/
def place (places units : Nat) : Text :=
  if places = 0 then Text.ofNat units
  else Text.ofNat (units / Nat.pow 10 places) ++ "."
    ++ Text.padZeros places (Text.ofNat (units % Nat.pow 10 places))

/-- The quotient `num / den` with `places` places. -/
def ofRatio (places num den : Nat) : Text := place places (roundDiv (num * Nat.pow 10 places) den)

/-- The sign of a double, from its bits. -/
def signBit (bits : UInt64) : Bool := bits >>> 63 == 1

/-- The magnitude of a finite double as `m * 2 ^ e / 2 ^ 1074`, from its bits. -/
def magnitude (bits : UInt64) : Nat × Nat :=
  let fraction := (bits &&& 0xFFFFFFFFFFFFF).toNat
  let exponent := ((bits >>> 52) &&& 0x7FF).toNat
  if exponent = 0 then (fraction, 0) else (fraction + 0x10000000000000, exponent - 1)

/-- A double with `places` places. -/
def ofFloat (places : Nat) (x : Float) : Text :=
  if x.isNaN then "NaN"
  else if x.isInf then (if x < 0 then "-Inf" else "+Inf")
  else
    let (m, e) := magnitude x.toBits
    (if signBit x.toBits then "-" else "") ++ ofRatio places (m * Nat.pow 2 e) (Nat.pow 2 1074)

end StumpGen.Decimal
