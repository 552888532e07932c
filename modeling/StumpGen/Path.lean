import StumpGen.Text

/-!
# File paths

Paths are texts with slashes between their parts.  `Path.clean` gives the shortest path that
leads to the same place without looking at the file system: it drops empty parts and `.`, and
lets `..` take back the part in front of it.
-/

namespace StumpGen

namespace Path

/-- The slash. -/
def slash : UInt8 := 47

/-- The dot. -/
def dot : UInt8 := 46

/-- The path of the current directory. -/
def here : Text := "."

/-- The path of the parent directory. -/
def parent : Text := ".."

/-- Whether the path starts at the root. -/
def isAbsolute (p : Text) : Bool := p.head? == some slash

/-- One more part after the parts in front of it, which are given last one first. -/
def push (rooted : Bool) (before : List Text) (part : Text) : List Text :=
  if part = [] ∨ part = here then before
  else if part = parent then
    match before with
    | [] => if rooted then [] else [parent]
    | p :: ps => if p = parent then parent :: before else ps
  else part :: before

/-- The parts of the shortest equivalent path. -/
def parts (p : Text) : List Text :=
  ((p.split slash).foldl (push (isAbsolute p)) []).reverse

/-- The path with the given parts. -/
def ofParts (rooted : Bool) (ps : List Text) : Text :=
  if rooted then slash :: Text.join [slash] ps
  else if ps = [] then here
  else Text.join [slash] ps

/-- The shortest equivalent path. -/
def clean (p : Text) : Text := ofParts (isAbsolute p) (parts p)

/-- One path after another. -/
def join (a b : Text) : Text :=
  if a = [] then (if b = [] then [] else clean b)
  else if b = [] then clean a
  else clean (a ++ [slash] ++ b)

/-- The path from the root, for a path that starts in `cwd`. -/
def absolute (cwd p : Text) : Text := if isAbsolute p then clean p else join cwd p

/-- The last part; slashes at the end do not count. -/
def base (p : Text) : Text :=
  if p = [] then here
  else
    match (p.split slash).filter (· ≠ []) with
    | [] => [slash]
    | q :: qs => (q :: qs).getLast (by simp)

/-- All but what follows the last slash. -/
def directory (p : Text) : Text :=
  clean (p.reverse.dropWhile (· ≠ slash)).reverse

/-- The end of the last part from its last dot on. -/
def extension (p : Text) : Text :=
  let last := p.reverse.takeWhile (· ≠ slash)
  if last.contains dot then (dot :: (last.takeWhile (· ≠ dot)).reverse) else []

/-- Drops the parts that two paths have in common at the start. -/
def dropCommon : List Text → List Text → List Text × List Text
  | a :: as, b :: bs => if a = b then dropCommon as bs else (a :: as, b :: bs)
  | as, bs => (as, bs)

/-- The path that leads from `origin` to `target`, if it can be told from their texts. -/
def relative? (origin target : Text) : Option Text :=
  if isAbsolute origin ≠ isAbsolute target then none
  else
    let (up, down) := dropCommon (parts origin) (parts target)
    if up.head? = some parent then none
    else some (ofParts false (up.map (fun _ => parent) ++ down))

end Path

end StumpGen
