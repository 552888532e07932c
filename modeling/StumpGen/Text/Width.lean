import StumpGen.Text.Cluster

/-!
# Columns

On a terminal a character takes no column, one or two.  `Text.shorten` cuts a text so that it
fits a number of columns.
-/

namespace StumpGen

/-- The columns that a character takes. -/
def Rune.width (r : Rune) : Nat :=
  let n := r.code
  if n < 32 ∨ (127 ≤ n ∧ n < 160) ∨ n = 0xad then 0
  else if n < 0x300 then 1
  else if CodeTable.narrow.contains n then 1
  else if CodeTable.invisible.contains n ∨ CodeTable.combining.contains n then 0
  else if CodeTable.wide.contains n then 2
  else 1

/-- The columns of a cluster: those of its first character that takes any. -/
def Cluster.width (rs : List Rune) : Nat := ((rs.map Rune.width).find? (0 < ·)).getD 0

namespace Text

/-- The columns that a text takes. -/
def width (t : Text) : Nat := t.clusters.foldl (fun n c => n + Cluster.width c) 0

/-- The longest beginning in whole clusters that takes at most `limit` columns. -/
def fitting (limit : Nat) : List (List Rune) → Text
  | [] => []
  | c :: cs =>
    let w := Cluster.width c
    if w ≤ limit then ofRunes c ++ fitting (limit - w) cs else []

/-- A text cut to `limit` columns, of which the last ones show `tail`.  A text that fits is not
changed; of one that does not, only the tail is shown if there is no room besides it. -/
def cutTo (t : Text) (limit : Nat) (tail : Text) : Text :=
  if t.width ≤ limit then t
  else if limit ≤ tail.width then tail
  else fitting (limit - tail.width) t.clusters ++ tail

/-- A name shortened for a column of the given width; three dots show that something is
missing, if there is room for them.  Without a width the name is not changed. -/
def shorten (t : Text) (width : Int) : Text :=
  if width ≤ 0 ∨ t.width ≤ width.toNat then t
  else if width ≤ 3 then t.cutTo width.toNat []
  else t.cutTo (width.toNat - 3) "..."

end Text

end StumpGen
