import StumpGen.Stats
import StumpGen.Text.Style

/-!
# Summaries

One line says how much of the instruction memory an image takes.  Its colour warns when little
is left.
-/

namespace StumpGen

namespace Stats

/-- The size of the image and the part of the memory that it takes. -/
def line (s : Stats) : Text :=
  Text.ofInt s.instructions ++ " instructions (" ++ s.percentage ++ " of "
    ++ Text.ofInt s.capacity ++ ")"

/-- Green up to three quarters of the memory, yellow up to all of it, then red. -/
def style (s : Stats) : Style :=
  if 100 < s.utilization then [.red, .bold]
  else if 75 ≤ s.utilization then [.yellow]
  else [.green]

/-- The summary of a file's image. -/
def summary (s : Stats) (file : Text) (color : Bool) : Text :=
  let shown := if file = [] then s.line else file ++ ": " ++ s.line
  s.style.paint color shown ++ Text.newline

end Stats

end StumpGen
