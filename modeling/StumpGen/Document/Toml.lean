import StumpGen.Document.Draft
import StumpGen.Document.Error
import StumpGen.Toml.Table

/-!
# Documents as TOML

The records of a document are tables.  When reading, the case of a key does not count, a
literal may be given as an integer, and a key that no record has is an error.  Smaller records
are read over earlier ones if there are no more of them than before.  When writing,
fields come in their fixed order and empty fields are left out, but for the kind and name of an
element and the operation of a statement.
-/

namespace StumpGen

namespace Document

/-! ### Reading -/

/-- What is read, and the keys that were used for it. -/
abbrev Using (α : Type) := α × List Toml.Key

/-- The name of a node's type, as shown when a literal has that type. -/
def nodeType : Toml.Node → Text
  | .string _ => "string"
  | .integer _ => "int64"
  | .float => "float64"
  | .boolean _ => "bool"
  | .datetime => "time.Time"
  | .array _ => "[]interface \x7b\x7d"
  | .table _ => "map[string]interface \x7b\x7d"
  | .tables _ => "[]map[string]interface \x7b\x7d"

/-- The text of a node in a field with the given content. -/
def Content.ofNode : Content → Toml.Node → Except ReadError Text
  | _, .string t => .ok t
  | .literal, .integer n => .ok (Text.ofInt n)
  | .literal, n => .error (.literalType (nodeType n))
  | .text, _ => .error .wrongType

/-- The items of a node that is a list. -/
def nodeItems (n : Toml.Node) : Except ReadError (List Toml.Node) :=
  match n.items? with
  | some ns => .ok ns
  | none => .error .wrongType

/-- Stores a node in a field. -/
def Slot.ofNode {ρ : Type} (s : Slot ρ) (r : ρ) (n : Toml.Node) : Except ReadError ρ :=
  match s.access with
  | .one _ set => return set r (← s.content.ofNode n)
  | .many _ set => return set r (← (← nodeItems n).mapM s.content.ofNode)

/-- Reads tables over records, from the first on. -/
def ofNodes {σ : Type} (read : σ → Toml.Table → Except ReadError (Using σ)) (blank : σ) :
    List σ → List Toml.Node → Except ReadError (List (Using σ))
  | _, [] => .ok []
  | old, .table t :: ns => do
    let s ← read (old.headD blank) t
    return s :: (← ofNodes read blank old.tail ns)
  | _, _ :: _ => .error .wrongType

/-- Reads smaller records.  They are read over those that a record has, if they are not more. -/
def Kept.ofNode {σ : Type} (read : σ → Toml.Table → Except ReadError (Using σ)) (blank : σ)
    (k : Kept σ) (n : Toml.Node) : Except ReadError (Using (Kept σ)) := do
  let ns ← nodeItems n
  let old := if ns.length ≤ k.items.length then k.items else []
  let found ← ofNodes read blank old ns
  pure (.readOver old (found.map Prod.fst), found.flatMap Prod.snd)

/-- Reads the keys of a table one after the other into a record.  `nested` reads the records
of the branch with the given key over the ones that are there, given the path to them. -/
def ofEntries {ρ σ : Type} (slots : List (Slot ρ)) (branchKey : Option String)
    (nested : Toml.Key → Kept σ → Toml.Node → Except ReadError (Using (Kept σ)))
    (path : Toml.Key) (d : Draft ρ σ) : Toml.Table → Except ReadError (Using (Draft ρ σ))
  | [] => .ok (d, [])
  | (k, n) :: rest => do
    match Toml.matchKey Slot.key slots k, Toml.matchKey id branchKey.toList k with
    | some s, _ => do
      let d := { d with record := ← s.ofNode d.record n }
      let (d, used) ← ofEntries slots branchKey nested path d rest
      pure (d, (path ++ [k]) :: used)
    | none, some _ => do
      let (kept, usedNested) ← nested (path ++ [k]) d.nested n
      let (d, used) ← ofEntries slots branchKey nested path { d with nested := kept } rest
      pure (d, (path ++ [k]) :: usedNested ++ used)
    | none, none => ofEntries slots branchKey nested path d rest

/-- Reads an argument. -/
def Argument.ofTable (path : Toml.Key) (a : Argument) (t : Toml.Table) :
    Except ReadError (Using Argument) := do
  let (d, used) ← ofEntries (σ := Empty) Argument.slots none (fun _ _ _ => .error .wrongType) path
    ⟨a, {}⟩ t
  pure (d.record, used)

/-- Reads a statement. -/
def StatementDraft.ofTable (path : Toml.Key) :
    StatementDraft → Toml.Table → Except ReadError (Using StatementDraft) :=
  ofEntries Statement.slots Statement.branch.key
    (fun path => Kept.ofNode (Argument.ofTable path) {}) path

/-- Reads an element. -/
def ElementDraft.ofTable (path : Toml.Key) :
    ElementDraft → Toml.Table → Except ReadError (Using ElementDraft) :=
  ofEntries Element.slots Element.branch.key
    (fun path => Kept.ofNode (StatementDraft.ofTable path) ⟨{}, {}⟩) path

/-- Reads a document. -/
def ofTable (t : Toml.Table) : Except ReadError (Using Document) := do
  let (d, used) ← ofEntries [] branch.key
    (fun path => Kept.ofNode (ElementDraft.ofTable path) ⟨{}, {}⟩) [] ⟨{}, {}⟩ t
  pure (DocumentDraft.document d, used)

/-- Reads a document from TOML. -/
def ofToml (t : Text) : Except ReadError Document :=
  match Toml.parse t with
  | .error e => .error (.toml e)
  | .ok p => do
    let (d, used) ← ofTable p.root
    match p.keys.filter (!used.contains ·) with
    | [] => pure d
    | ks => .error (.unknownKeys ((ks.map Toml.Key.text).mergeSort (fun a b => decide (a ≤ b))))

/-! ### Writing -/

/-- A line with a key and what it holds, `depth` tables deep. -/
def keyLine (depth : Nat) (key : String) (value : Text) : Text :=
  Text.blanks (2 * depth) ++ key ++ " = " ++ value ++ Text.newline

/-- The line of a field, unless it is left out. -/
def Slot.toml {ρ : Type} (depth : Nat) (s : Slot ρ) (r : ρ) : Text :=
  match s.access with
  | .one get _ =>
    if get r = [] ∧ ¬ s.always then [] else keyLine depth s.key (Toml.quoted (get r))
  | .many get _ =>
    if get r = [] then []
    else keyLine depth s.key ("[" ++ Text.join ", " ((get r).map Toml.quoted) ++ "]")

/-- The line that opens a table of a list. -/
def itemLine (path : List String) : Text :=
  Text.blanks (2 * (path.length - 1)) ++ "[[" ++ Text.join "." (path.map Text.ofString) ++ "]]"
    ++ Text.newline

/-- The lines of a record: what opens it, its fields, and its smaller records.  A blank line
goes before each table but the first. -/
def recordLines {ρ : Type} (path : List String) (slots : List (Slot ρ)) (nested : ρ → Text)
    (r : ρ) : Text :=
  itemLine path ++ slots.flatMap (Slot.toml path.length · r) ++ nested r

/-- The lines of an argument. -/
def Argument.toml : Argument → Text :=
  recordLines ["element", "body", "args"] Argument.slots fun _ => []

/-- The lines of a statement. -/
def Statement.toml : Statement → Text :=
  recordLines ["element", "body"] Statement.slots fun s =>
    s.args.flatMap fun a => Text.newline ++ a.toml

/-- The lines of an element. -/
def Element.toml : Element → Text :=
  recordLines ["element"] Element.slots fun e =>
    e.body.flatMap fun s => Text.newline ++ s.toml

/-- The document as TOML.  Nothing is written for a list that is not there. -/
def toml (d : Document) : Text :=
  match d.elements? with
  | none => []
  | some [] => "element = []" ++ Text.newline
  | some es => Text.join Text.newline (es.map Element.toml)

end Document

end StumpGen
