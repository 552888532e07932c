import StumpGen.Text.Decimal

/-!
# The size of an image

The image of a program is measured against the instruction memory of the target.
-/

namespace StumpGen

/-- The size of an image and of the memory that it is meant for. -/
structure Stats where
  /-- The number of words. -/
  instructions : Int := 0
  /-- The number of words that fit. -/
  capacity : Int := 0
  deriving DecidableEq, Repr, Inhabited

namespace Stats

/-- The size of the memory unless another one is given. -/
def defaultCapacity : Int := 8000

/-- The part of the memory in use, in percent; zero if there is no memory. -/
def utilization (s : Stats) : Float :=
  if s.capacity ≤ 0 then 0
  else (Int64.ofInt s.instructions).toFloat / (Int64.ofInt s.capacity).toFloat * 100

/-- Whether the image does not fit. -/
def isExceeded (s : Stats) : Bool := 0 < s.capacity && s.capacity < s.instructions

/-- The part of the memory in use, with one place and a percent sign. -/
def percentage (s : Stats) : Text := Decimal.ofFloat 1 s.utilization ++ "%"

end Stats

end StumpGen
