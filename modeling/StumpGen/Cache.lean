import StumpGen.Digest
import StumpGen.Host
import StumpGen.MessagePack

/-!
# The cache of a build

For each output file the cache keeps what it was made from: a fingerprint of the input and the
options, and the size of the image.  An entry is a small file named after the digest of the
output's path.  It holds the path itself too, so an entry for another output is never taken for
the one that was asked for.
-/

namespace StumpGen

/-- A directory with entries. -/
structure Cache where
  /-- The directory. -/
  directory : Text
  deriving DecidableEq, Repr, Inhabited

namespace Cache

/-- The version of the layout of entries. -/
def schemaVersion : Nat := 1

/-- What an output file was made from. -/
structure Entry where
  /-- The version of the layout. -/
  schema : Nat := 0
  /-- The path of the output. -/
  output : Text := []
  /-- The fingerprint of input and options. -/
  fingerprint : Digest := ⟨List.replicate 32 0⟩
  /-- The number of words of the image. -/
  words : Int := 0
  /-- The size of the instruction memory. -/
  capacity : Int := 0
  deriving DecidableEq, Repr, Inhabited

namespace Entry

/-- An entry as a MessagePack map of its five fields. -/
def encode (e : Entry) : Text :=
  MessagePack.ofEntries [
    ("Schema", 0xcd :: MessagePack.big 2 e.schema),
    ("Output", MessagePack.ofText e.output),
    ("Fingerprint", MessagePack.ofBytes e.fingerprint.bytes),
    ("Words", MessagePack.ofInt e.words),
    ("Capacity", MessagePack.ofInt e.capacity)]

/-! ### Reading -/

/-- Takes a fingerprint.  Fewer bytes than it has replace the first ones, more are refused. -/
def readFingerprint (old : Digest) (t : Text) : Option (MessagePack.Found Digest) :=
  match MessagePack.head t with
  | some (.nil, rest) => some (old, rest)
  | some (.text n, rest) =>
    if n ≤ 32 then
      (MessagePack.take n rest).map fun (bs, rest) => (⟨bs ++ old.bytes.drop n⟩, rest)
    else none
  | _ => none

/-- A field: its name, and how it is read over an entry. -/
abbrev Field := String × (Entry → Text → Option (MessagePack.Found Entry))

/-- A field that is read by itself. -/
def field {α : Type} (name : String) (read : Text → Option (MessagePack.Found α))
    (set : Entry → α → Entry) : Field :=
  (name, fun e t => (read t).map fun (v, rest) => (set e v, rest))

/-- The fields in their order. -/
def fields : List Field :=
  [field "Schema" MessagePack.integer fun e v => { e with schema := (v % 65536).toNat },
   field "Output" MessagePack.text fun e v => { e with output := v },
   ("Fingerprint", fun e t =>
     (readFingerprint e.fingerprint t).map fun (v, rest) => ({ e with fingerprint := v }, rest)),
   field "Words" MessagePack.integer fun e v => { e with words := v },
   field "Capacity" MessagePack.integer fun e v => { e with capacity := v }]

/-- Takes `n` named fields; those that an entry does not have are dropped. -/
def readNamed : Nat → Entry → Text → Option Entry
  | 0, e, _ => some e
  | n + 1, e, t => do
    let (k, t) ← MessagePack.text t
    match fields.find? fun f => (f.1 : Text) = k with
    | some f => do
      let (e, t) ← f.2 e t
      readNamed n e t
    | none => do
      let t ← MessagePack.drop t.length 1 t
      readNamed n e t

/-- Takes fields in their order. -/
def readInOrder : List Field → Entry → Text → Option Entry
  | [], e, _ => some e
  | f :: fs, e, t => do
    let (e, t) ← f.2 e t
    readInOrder fs e t

/-- Reads an entry: a map of fields, or a list of all of them.  Bytes after it do not count. -/
def decode (t : Text) : Option Entry :=
  match MessagePack.head t with
  | some (.nil, _) | some (.array 0, _) => some {}
  | some (.map n, rest) => readNamed n {} rest
  | some (.array n, rest) => if n = fields.length then readInOrder fields {} rest else none
  | _ => none

end Entry

/-! ### Looking up and storing -/

/-- The file of the entry for an output. -/
def entryPath (c : Cache) (output : Text) : Text :=
  Path.join c.directory ((Digest.ofText output).hex ++ ".mp")

/-- Why an entry cannot be used. -/
inductive Error where
  /-- Its file cannot be read. -/
  | file (e : FileError)
  /-- Its file is no entry. -/
  | malformed
  deriving DecidableEq, Repr, Inhabited

/-- An entry, if it is of this version and for this output. -/
def Entry.checked? (e : Entry) (output : Text) : Option Entry :=
  if e.schema = schemaVersion ∧ e.output = output then some e else none

variable {m : Type → Type} [Monad m] [Host m]

/-- Opens the cache in a directory, which is made if needed. -/
def open? (directory : Text) : m (Except FileError Cache) := do
  match ← Host.makeDirectories directory with
  | .error e => pure (.error e)
  | .ok () => pure (.ok ⟨directory⟩)

/-- Stores an entry for its output. -/
def put (c : Cache) (e : Entry) : m (Except FileError Unit) :=
  Host.replace (c.entryPath e.output) { e with schema := schemaVersion }.encode

/-- The entry for an output, if there is one. -/
def get (c : Cache) (output : Text) : m (Except Error (Option Entry)) := do
  match ← Host.read (c.entryPath output) with
  | .error e => pure (if e.cause = .missing then .ok none else .error (.file e))
  | .ok t =>
    match Entry.decode t with
    | none => pure (.error .malformed)
    | some e => pure (.ok (e.checked? output))

/-- The entry for an output that exists and was made from what the fingerprint stands for. -/
def fresh (c : Cache) (output : Text) (fingerprint : Digest) : m (Option Entry) := do
  match ← c.get output with
  | .ok (some e) =>
    if e.fingerprint = fingerprint then
      match ← Host.kind output with
      | .ok _ => pure (some e)
      | .error _ => pure none
    else pure none
  | _ => pure none

/-! ### A cache that may be missing

Where there is none, all is well: nothing is stored, and nothing is found. -/

/-- Stores an entry, if there is a cache. -/
def storeIn (c : Option Cache) (e : Entry) : m (Except FileError Unit) :=
  match c with
  | some c => c.put e
  | none => pure (.ok ())

/-- The entry for an output, if there is a cache with one. -/
def lookIn (c : Option Cache) (output : Text) : m (Except Error (Option Entry)) :=
  match c with
  | some c => c.get output
  | none => pure (.ok none)

/-- The entry for an output that is up to date, if there is a cache with one. -/
def freshIn (c : Option Cache) (output : Text) (fingerprint : Digest) : m (Option Entry) :=
  match c with
  | some c => c.fresh output fingerprint
  | none => pure none

end Cache

end StumpGen
