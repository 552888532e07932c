import StumpGen.Text.Rune

/-!
# Letter case

Words of the program's own vocabulary are ASCII, and they are looked up without regard to
case.  Outside ASCII only few characters have an ASCII letter as another case: the Kelvin sign
(`k`), the capital I with a dot (`i` in lower case) and the long s (`s` when folded).
-/

namespace StumpGen

namespace Rune

/-- Lower case, as far as the result is ASCII. -/
def lower : Rune → Rune
  | .scalar c =>
    if 'A' ≤ c ∧ c ≤ 'Z' then .scalar (Char.ofNat (c.toNat + 32))
    else if c.toNat = 0x212A then .scalar 'k'
    else if c.toNat = 0x130 then .scalar 'i'
    else .scalar c
  | .stray b => .stray b

/-- The representative of a rune among those that differ from it only in case, as far as the
representative is ASCII. -/
def fold : Rune → Rune
  | .scalar c =>
    if 'A' ≤ c ∧ c ≤ 'Z' then .scalar (Char.ofNat (c.toNat + 32))
    else if c.toNat = 0x212A then .scalar 'k'
    else if c.toNat = 0x17F then .scalar 's'
    else .scalar c
  | .stray b => .stray b

end Rune

namespace Text

/-- The text in lower case, as far as the result is ASCII. -/
def lower (t : Text) : Text := ofRunes ((runes t).map Rune.lower)

/-- Whether two texts, one of them ASCII, differ at most in case. -/
def equalFold (s t : Text) : Bool :=
  (runes s).map Rune.fold == (runes t).map Rune.fold

end Text

end StumpGen
