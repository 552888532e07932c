import StumpGen.Path

/-!
# Paths for readers

Reports show a path as it was given, from the root, from a base directory, or only its last
part.
-/

namespace StumpGen

namespace Path

/-- How paths are shown. -/
inductive Display where
  /-- From the base directory for files below it, else as given. -/
  | auto
  /-- From the root. -/
  | absolute
  /-- From the base directory. -/
  | relative
  /-- The last part only. -/
  | basename
  deriving DecidableEq, Repr, Inhabited

/-- The path from a base directory; there is none without one.  Relative paths start in
`cwd`. -/
def fromBase? (cwd base p : Text) : Option Text :=
  if base = [] then none else relative? (Path.absolute cwd base) (Path.absolute cwd p)

/-- A path as it is shown. -/
def display (cwd : Text) (mode : Display) (base p : Text) : Text :=
  if p = [] then []
  else match mode with
    | .absolute => Path.absolute cwd p
    | .basename => Path.base p
    | .relative => (fromBase? cwd base p).getD p
    | .auto =>
      match fromBase? cwd base p with
      | some r => if r.startsWith parent then p else r
      | none => p

end Path

end StumpGen
