import StumpGen.Text.Rune

/-!
# White space

The blank characters are those of the Unicode property `White_Space`.  A stray byte is never
blank.
-/

namespace StumpGen

namespace Rune

/-- Whether a code point is white space. -/
def blankCode (n : Nat) : Bool :=
  (9 ≤ n && n ≤ 13) || n == 0x20 || n == 0x85 || n == 0xA0 || n == 0x1680
    || (0x2000 ≤ n && n ≤ 0x200A) || n == 0x2028 || n == 0x2029 || n == 0x202F
    || n == 0x205F || n == 0x3000

/-- Whether a rune is white space. -/
def isBlank : Rune → Bool
  | .scalar c => blankCode c.toNat
  | .stray _ => false

end Rune

namespace Text

/-- A sequence of runes without blanks at its ends. -/
def trimRunes (rs : List Rune) : List Rune :=
  ((rs.dropWhile Rune.isBlank).reverse.dropWhile Rune.isBlank).reverse

/-- A text without blanks at its ends. -/
def trim (t : Text) : Text := ofRunes (trimRunes (runes t))

/-- Whether every rune of the text is blank. -/
def isBlank (t : Text) : Bool := (runes t).all Rune.isBlank

/-- The runs of runes that `sep` rejects, in order: no run is empty. -/
def runsBetween (sep : Rune → Bool) : List Rune → List (List Rune)
  | [] => []
  | r :: rs =>
    if sep r then runsBetween sep rs
    else match rs, runsBetween sep rs with
      | s :: _, w :: ws => if sep s then [r] :: w :: ws else (r :: w) :: ws
      | _, ws => [r] :: ws

/-- The words of a text: its maximal runs of runes that are not blank. -/
def words (t : Text) : List Text := (runsBetween Rune.isBlank (runes t)).map ofRunes

end Text

end StumpGen
