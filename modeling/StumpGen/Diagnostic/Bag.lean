import StumpGen.Diagnostic

/-!
# Collections of diagnostics

A `Bag` keeps diagnostics in the order in which they were added, up to a limit of at most
65535.  Merging two bags keeps all diagnostics and raises the limit as far as 16 bits allow.
-/

namespace StumpGen

/-- Diagnostics in the order of their arrival, with a limit on their number. -/
structure Bag where
  /-- The diagnostics. -/
  items : List Diagnostic := []
  /-- How many may be added. -/
  limit : UInt16
  deriving DecidableEq, Repr, Inhabited

namespace Bag

/-- The limit that a requested number gives: anything that is not positive or does not fit
16 bits asks for the largest one. -/
def limitOf (max : Int) : UInt16 := if 0 < max ∧ max ≤ 0xFFFF then max.toNat.toUInt16 else 0xFFFF

/-- An empty bag for at most `max` diagnostics. -/
def empty (max : Int) : Bag := { limit := limitOf max }

/-- The number of diagnostics. -/
def size (b : Bag) : Nat := b.items.length

/-- Whether another diagnostic would be refused. -/
def isFull (b : Bag) : Bool := b.limit.toNat ≤ b.size

/-- Adds a diagnostic, unless the bag is full. -/
def add (b : Bag) (d : Diagnostic) : Bag :=
  if b.isFull then b else { b with items := b.items ++ [d] }

/-- Adds diagnostics as long as there is room for them. -/
def addAll (b : Bag) (ds : List Diagnostic) : Bag :=
  { b with items := b.items ++ ds.take (b.limit.toNat - b.size) }

/-- Whether some diagnostic is at least as grave as `s`. -/
def has (b : Bag) (s : Severity) : Bool := b.items.any (·.severity.atLeast s)

/-- Whether there are errors. -/
def hasErrors (b : Bag) : Bool := b.has .error

/-- Whether there are warnings, or worse. -/
def hasWarnings (b : Bag) : Bool := b.has .warning

/-- All diagnostics of both bags, those of `b` first. -/
def merge (b other : Bag) : Bag where
  items := b.items ++ other.items
  limit :=
    let total := b.size + other.size
    if b.limit.toNat < total then (min total 0xFFFF).toUInt16 else b.limit

/-- Whether `a` may stand before `b` in a sorted bag: by file, element and statement, then
the graver one first, then by code. -/
def inOrder (a b : Diagnostic) : Bool :=
  if a.location.file ≠ b.location.file then a.location.file < b.location.file
  else if a.location.element ≠ b.location.element then a.location.element < b.location.element
  else if a.location.statement ≠ b.location.statement then
    a.location.statement < b.location.statement
  else if a.severity ≠ b.severity then b.severity.rank < a.severity.rank
  else a.code.number ≤ b.code.number

/-- The diagnostics in order of place; equal ones keep their order. -/
def sort (b : Bag) : Bag := { b with items := b.items.mergeSort inOrder }

/-- The text by which duplicates are recognised. -/
def key (d : Diagnostic) : Text := d.code.id ++ ":" ++ d.location.text ++ ":" ++ d.message

/-- The first diagnostic for each key that is not in `seen`. -/
def firsts (seen : List Text) : List Diagnostic → List Diagnostic
  | [] => []
  | d :: ds => if seen.contains (key d) then firsts seen ds else d :: firsts (key d :: seen) ds

/-- The bag with only the first diagnostic for each key. -/
def dedup (b : Bag) : Bag := { b with items := firsts [] b.items }

/-- A bag with the same limit for the diagnostics that are at least as grave as `least`. -/
def atLeast (b : Bag) (least : Severity) : Bag :=
  (empty b.limit.toNat).addAll (b.items.filter (·.severity.atLeast least))

end Bag

end StumpGen
