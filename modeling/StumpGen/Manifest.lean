import StumpGen.Fault
import StumpGen.Host
import StumpGen.Text.Blank
import StumpGen.Text.Quoted
import StumpGen.Toml.Table

/-!
# Projects

A project is a directory with a manifest: a file that lists units, each with an input and an
output, and the settings that they share.  Two units never write to one output.
-/

namespace StumpGen

namespace Manifest

/-- The settings that all units share. -/
structure Target where
  /-- Where the images start. -/
  org : Text := []
  /-- The size of the instruction memory. -/
  capacity : Int := 0
  /-- The function that the bootstrap enters. -/
  entry : Text := []
  deriving DecidableEq, Repr, Inhabited

/-- A program and the listing that is made from it. -/
structure Source where
  /-- The file with the program. -/
  input : Text := []
  /-- The file for the listing. -/
  output : Text := []
  /-- The function that the bootstrap enters, if it is not the shared one. -/
  entry : Text := []
  deriving DecidableEq, Repr, Inhabited

end Manifest

/-- A project. -/
structure Manifest where
  /-- The file that describes it. -/
  path : Text
  /-- The directory of that file. -/
  root : Text
  /-- The shared settings. -/
  target : Manifest.Target
  /-- The units. -/
  units : List Manifest.Source
  deriving DecidableEq, Repr, Inhabited

namespace Manifest

/-- The name of the file that describes a project. -/
def fileName : Text := "fstump.toml"

/-- The function that the bootstrap of a unit enters. -/
def entryFor (p : Manifest) (u : Source) : Text :=
  if u.entry = [] then p.target.entry else u.entry

/-- A path from the root of the project, if it lies there. -/
def relative (p : Manifest) (path : Text) : Text :=
  match Path.relative? p.root path with
  | some r => if r.startsWith Path.parent then path else r
  | none => path

/-- Where the cache of the project is. -/
def cacheDirectory (p : Manifest) : Text := Path.join (Path.join p.root ".fstump") "cache"

/-! ### Errors -/

/-- Why a file does not describe a project. -/
inductive Error where
  /-- It cannot be read. -/
  | file (e : FileError)
  /-- It does not follow the rules of TOML. -/
  | toml (e : Toml.Error)
  /-- A key has a value of the wrong type. -/
  | wrongType
  /-- It has a key that means nothing. -/
  | unknownKey (k : Toml.Key)
  /-- The instruction memory has no words. -/
  | capacity
  /-- There are no units. -/
  | noUnits
  /-- A unit has no input. -/
  | missingInput (unit : Nat)
  /-- A unit has no output. -/
  | missingOutput (unit : Nat)
  /-- Two units have one output. -/
  | sharedOutput (unit : Nat) (output : Text) (first : Nat)
  deriving DecidableEq, Repr, Inhabited

/-- The name of a unit in messages. -/
def unitName (n : Nat) : Text := "[[unit]] #" ++ Text.ofNat n

/-- The text of an error, without the name of the file. -/
def Error.detail : Error → Text
  | .file e => "failed to parse TOML: " ++ e.message
  | .toml e => "failed to parse TOML: " ++ e.message
  | .wrongType => "failed to parse TOML: incompatible types"
  | .unknownKey k => "unknown key " ++ k.text
  | .capacity => "[target].capacity must be positive"
  | .noUnits => "no [[unit]] entries"
  | .missingInput n => unitName n ++ ": missing input"
  | .missingOutput n => unitName n ++ ": missing output"
  | .sharedOutput n output first =>
    unitName n ++ " writes " ++ output ++ ", already written by #" ++ Text.ofNat first

/-- The text of an error of the file at a path. -/
def Error.message (path : Text) (e : Error) : Text := path ++ ": " ++ e.detail

/-! ### Reading -/

/-- What is read, and the keys that were used for it. -/
abbrev Using (α : Type) := α × List Toml.Key

/-- A field of a record: its name, and how a value is stored in it. -/
abbrev Field (ρ : Type) := String × (ρ → Toml.Node → Option ρ)

/-- A field that holds text. -/
def textField {ρ : Type} (name : String) (set : ρ → Text → ρ) : Field ρ :=
  (name, fun r n => match n with
    | .string t => some (set r t)
    | _ => none)

/-- The fields of the shared settings. -/
def targetFields : List (Field Target) :=
  [textField "org" fun t v => { t with org := v },
   ("capacity", fun t n => match n with
     | .integer v => some { t with capacity := v }
     | _ => none),
   textField "entry" fun t v => { t with entry := v }]

/-- The fields of a unit. -/
def sourceFields : List (Field Source) :=
  [textField "input" fun u v => { u with input := v },
   textField "output" fun u v => { u with output := v },
   textField "entry" fun u v => { u with entry := v }]

/-- Reads the keys of a table over a record; keys that mean nothing are left alone. -/
def readTable {ρ : Type} (fields : List (Field ρ)) (path : Toml.Key) (r : ρ) :
    Toml.Table → Option (Using ρ)
  | [] => some (r, [])
  | (k, n) :: rest =>
    match Toml.matchKey Prod.fst fields k with
    | none => readTable fields path r rest
    | some f => do
      let (r, used) ← readTable fields path (← f.2 r n) rest
      pure (r, (path ++ [k]) :: used)

/-- Reads the table of a unit. -/
def readSource (path : Toml.Key) : Toml.Node → Option (Using Source)
  | .table t => readTable sourceFields path {} t
  | _ => none

/-- The shared settings and units as they are written. -/
abbrev Draft := Target × List Source

/-- The parts of a manifest. -/
inductive Section where
  /-- The shared settings. -/
  | target
  /-- The units. -/
  | units
  deriving DecidableEq, Repr, Inhabited

/-- The key of a part. -/
def Section.key : Section → String
  | .target => "target"
  | .units => "unit"

/-- Reads the outermost table. -/
def readDraft (d : Draft) : Toml.Table → Option (Using Draft)
  | [] => some (d, [])
  | (k, n) :: rest =>
    match Toml.matchKey Section.key [.target, .units] k with
    | none => readDraft d rest
    | some .target =>
      match n with
      | .table t => do
        let (target, used) ← readTable targetFields [k] d.1 t
        let (d, more) ← readDraft (target, d.2) rest
        pure (d, [k] :: used ++ more)
      | _ => none
    | some .units => do
      let found ← (← n.items?).mapM (readSource [k])
      let (d, more) ← readDraft (d.1, found.map Prod.fst) rest
      pure (d, [k] :: found.flatMap Prod.snd ++ more)

/-- A path of the manifest, from its directory. -/
def resolve (root p : Text) : Text :=
  if Path.isAbsolute p.trim then Path.clean p.trim else Path.join root p.trim

/-- Checks the units from the `n`-th on, given the outputs of those before it with their
numbers, and resolves their paths. -/
def checkUnits (root : Text) (outputs : List (Text × Nat)) (n : Nat) :
    List Source → Except Error (List Source)
  | [] => .ok []
  | u :: us =>
    if u.input.trim = [] then .error (.missingInput n)
    else if u.output.trim = [] then .error (.missingOutput n)
    else
      let output := resolve root u.output
      match outputs.lookup output with
      | some first => .error (.sharedOutput n output first)
      | none => do
        let us ← checkUnits root ((output, n) :: outputs) (n + 1) us
        pure ({ u with input := resolve root u.input, output } :: us)

/-- The project that a text describes, for a file at the given path. -/
def ofText (path t : Text) : Except Error Manifest := do
  match Toml.parse t with
  | .error e => .error (.toml e)
  | .ok parsed =>
    match readDraft ({}, []) parsed.root with
    | none => .error .wrongType
    | some ((target, units), used) =>
      match parsed.keys.find? (!used.contains ·) with
      | some k => .error (.unknownKey k)
      | none =>
        if (Toml.Table.find? ["target", "capacity"] parsed.root).isSome ∧ target.capacity ≤ 0 then
          .error .capacity
        else if units = [] then .error .noUnits
        else
          let root := Path.directory path
          return { path, root, target, units := ← checkUnits root [] 1 units }

/-! ### Files -/

variable {m : Type → Type} [Monad m] [Host m]

/-- The project that the file at a path describes. -/
def load (path : Text) : m (Except Error Manifest) := do
  match ← Host.read path with
  | .error e => pure (.error (.file e))
  | .ok t => pure (ofText path t)

/-- The files that may describe a project around an absolute path, the nearest first. -/
def candidates (directory : Text) : List Text :=
  let ps := Path.parts directory
  (List.range (ps.length + 1)).reverse.map fun i =>
    Path.join (Path.ofParts true (ps.take i)) fileName

/-- The first file of a list that exists. -/
def firstFound : List Text → m (Except Failure (Option Text))
  | [] => pure (.ok none)
  | c :: cs => do
    match ← Host.kind c with
    | .ok _ => pure (.ok (some c))
    | .error e =>
      if e.cause = .missing then firstFound cs
      else pure (.error (.plain ("failed to stat " ++ Text.quoted c ++ ": " ++ e.message)))

/-- Looks for the file that describes a project in a directory and those around it. -/
def find (start : Text) : m (Except Failure (Option Text)) := do
  let cwd ← Host.workingDirectory
  firstFound (candidates (Path.absolute cwd (if start = [] then Path.here else start)))

end Manifest

end StumpGen
