import StumpGen.Text

/-!
# Tables of code points

Properties of characters are data.  A table is written as a string of hexadecimal numbers with
blanks or line ends between them, and read once.
-/

namespace StumpGen.CodeTable

/-- The value of a hexadecimal digit; anything else counts as zero. -/
def hexValue (c : Char) : Nat :=
  if '0' ≤ c ∧ c ≤ '9' then c.toNat - 48
  else if 'a' ≤ c ∧ c ≤ 'f' then c.toNat - 87
  else 0

/-- Adds one character to the numbers read so far (last one first) and the one being read. -/
def readChar (s : List Nat × Option Nat) (c : Char) : List Nat × Option Nat :=
  if c = ' ' ∨ c = '\n' then
    match s.2 with
    | some n => (n :: s.1, none)
    | none => s
  else (s.1, some (s.2.getD 0 * 16 + hexValue c))

/-- The hexadecimal numbers of a string, in order. -/
def numbers (s : String) : List Nat :=
  match s.toList.foldl readChar ([], none) with
  | (ns, some n) => (n :: ns).reverse
  | (ns, none) => ns.reverse

/-- The numbers two by two. -/
def pairs : List Nat → List (Nat × Nat)
  | a :: b :: t => (a, b) :: pairs t
  | _ => []

/-- The numbers three by three. -/
def triples : List Nat → List (Nat × Nat × Nat)
  | a :: b :: c :: t => (a, b, c) :: triples t
  | _ => []

/-- A set of code points, as ranges that include their ends. -/
structure Ranges where
  /-- First and last code point of each range, in increasing order. -/
  ranges : Array (Nat × Nat)

/-- The ranges whose ends a string lists. -/
def Ranges.ofString (s : String) : Ranges := ⟨(pairs (numbers s)).toArray⟩

/-- Whether a code point lies in one of the ranges. -/
def Ranges.contains (r : Ranges) (n : Nat) : Bool := r.ranges.any fun p => p.1 ≤ n && n ≤ p.2

end StumpGen.CodeTable
