import StumpGen.Host

/-!
# File systems as values

A `FileTree` is a file system without links: it says for each place whether there is a file or
a directory.  A place is given by the names on the way from the root (`Place`).  A path is
followed name by name as an operating system does it: a name is looked up only in a directory
that exists, `.` and an empty name stay where they are, and `..` goes up.
-/

namespace StumpGen

/-- What stands at a place. -/
inductive FileTree.Entry where
  /-- A file. -/
  | file (contents : Text)
  /-- A directory. -/
  | directory
  deriving DecidableEq, Repr, Inhabited

/-- A place: the names on the way from the root. -/
abbrev FileTree.Place := List Text

/-- A file system. -/
structure FileTree where
  /-- What is where; nothing stands at a place that is not listed. -/
  entries : List (FileTree.Place × FileTree.Entry) := []
  /-- Where relative paths start. -/
  current : FileTree.Place := []
  deriving DecidableEq, Repr, Inhabited

namespace FileTree

/-- What stands at a place.  The root is always a directory. -/
def get? (t : FileTree) (k : Place) : Option Entry :=
  if k = [] then some .directory else t.entries.lookup k

/-- Puts something at a place, whatever was there before. -/
def set (t : FileTree) (k : Place) (e : Entry) : FileTree :=
  { t with entries := (k, e) :: t.entries.filter (·.1 ≠ k) }

/-- Takes away what is at a place and below it. -/
def erase (t : FileTree) (k : Place) : FileTree :=
  { t with entries := t.entries.filter fun e => !k.isPrefixOf e.1 }

/-- Follows names from a place.  Whether there is anything at the end is not checked. -/
def follow (t : FileTree) (k : Place) : List Text → Except FileError.Cause Place
  | [] => .ok k
  | name :: names =>
    match t.get? k with
    | none => .error .missing
    | some (.file _) => .error .notDirectory
    | some .directory =>
      if name = [] ∨ name = Path.here then t.follow k names
      else if name = Path.parent then t.follow k.dropLast names
      else t.follow (k ++ [name]) names

/-- The place that a path leads to. -/
def place (t : FileTree) (p : Text) : Except FileError.Cause Place :=
  if p = [] then .error .missing
  else t.follow (if Path.isAbsolute p then [] else t.current) (p.split Path.slash)

/-! ### Operations -/

/-- The contents of a file. -/
def read (t : FileTree) (p : Text) : Except FileError Text :=
  match t.place p with
  | .error c => .error ⟨"open", p, c⟩
  | .ok k =>
    match t.get? k with
    | none => .error ⟨"open", p, .missing⟩
    | some .directory => .error ⟨"read", p, .isDirectory⟩
    | some (.file contents) => .ok contents

/-- The tree with a file written. -/
def write (t : FileTree) (p contents : Text) : Except FileError FileTree :=
  match t.place p with
  | .error c => .error ⟨"open", p, c⟩
  | .ok k =>
    if t.get? k = some .directory then .error ⟨"open", p, .isDirectory⟩
    else .ok (t.set k (.file contents))

/-- The path of the unfinished file that takes the place of another one when it is done. -/
def unfinished (p : Text) : Text := Path.join (Path.directory p) "tmp-0"

/-- The tree with a file put into its place.  The file is finished next to that place first. -/
def replace (t : FileTree) (p contents : Text) : Except FileError FileTree :=
  match t.place (unfinished p) with
  | .error c => .error ⟨"open", unfinished p, c⟩
  | .ok _ =>
    match t.place p with
    | .error c => .error ⟨"rename", unfinished p ++ " " ++ p, c⟩
    | .ok k =>
      if t.get? k = some .directory then .error ⟨"rename", unfinished p ++ " " ++ p, .taken⟩
      else .ok (t.set k (.file contents))

/-- The tree with a directory made. -/
def makeDirectory (t : FileTree) (p : Text) : Except FileError FileTree :=
  match t.place p with
  | .error c => .error ⟨"mkdir", p, c⟩
  | .ok k =>
    if (t.get? k).isSome then .error ⟨"mkdir", p, .taken⟩ else .ok (t.set k .directory)

/-- What is at a path. -/
def kind (t : FileTree) (p : Text) : Except FileError FileKind :=
  match t.place p with
  | .error c => .error ⟨"stat", p, c⟩
  | .ok k =>
    match t.get? k with
    | none => .error ⟨"stat", p, .missing⟩
    | some .directory => .ok .directory
    | some (.file _) => .ok .file

/-- The tree without what is at a path; nothing is changed if there is nothing. -/
def remove (t : FileTree) (p : Text) : FileTree :=
  match t.place p with
  | .error _ => t
  | .ok k => t.erase k

/-- The paths of all files below a place, from there and in order. -/
def filesBelow (t : FileTree) (k : Place) : List Text :=
  (t.entries.filterMap fun
    | (p, .file _) =>
      if k.isPrefixOf p then some (Text.join [Path.slash] (p.drop k.length)) else none
    | (_, .directory) => none).mergeSort fun a b => decide (a ≤ b)

/-- An empty tree whose only directories are the working directory and those around it. -/
def empty (current : Place) : FileTree where
  entries := (List.range current.length).map fun i => (current.take (i + 1), .directory)
  current

/-- Changes the state if an operation succeeds. -/
def update (f : FileTree → Except FileError FileTree) :
    StateM FileTree (Except FileError Unit) := fun t =>
  match f t with
  | .error e => (.error e, t)
  | .ok t' => (.ok (), t')

/-- On a tree no time passes. -/
instance : Host (StateM FileTree) where
  read p := return (← get).read p
  write p contents := update (·.write p contents)
  replace p contents := update (·.replace p contents)
  makeDirectory p := update (·.makeDirectory p)
  kind p := return (← get).kind p
  workingDirectory := return Path.ofParts true (← get).current
  clock := pure 0

end FileTree

end StumpGen
