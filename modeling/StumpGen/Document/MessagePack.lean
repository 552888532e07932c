import StumpGen.Document.Draft
import StumpGen.Document.Error
import StumpGen.MessagePack

/-!
# Documents as MessagePack

The records of a document are maps from field names to values, of which empty fields are left
out.  A reader also takes a list of all field values in their order for a record, no value for
any field, and an integer for a literal; it refuses a name that no field has.  A name that
comes again replaces what it held before, but smaller records are read over the earlier ones
unless no value came in between.
-/

namespace StumpGen

namespace Document

/-! ### Reading -/

/-- A reader that gives up is a malformed file. -/
def packed {α : Type} : Option (MessagePack.Found α) → Except ReadError (MessagePack.Found α)
  | some r => .ok r
  | none => .error .packed

/-- Takes a literal: a text, an integer, or no value. -/
def packedLiteral (t : Text) : Except ReadError (MessagePack.Found Text) :=
  let other (type : Text) : Except ReadError (MessagePack.Found Text) :=
    match MessagePack.skip (2 * t.length) t with
    | some _ => .error (.literalType type)
    | none => .error .packed
  match MessagePack.head t with
  | none => .error .packed
  | some (.nil, _) | some (.text _, _) => packed (MessagePack.text t)
  | some (.integer n, rest) => .ok (Text.ofInt n, rest)
  | some (.boolean _, _) => other "bool"
  | some (.float _, _) => other "float64"
  | some (.array _, _) => other "[]interface \x7b\x7d"
  | some (.map _, _) => other "map[string]interface \x7b\x7d"
  | some (.extended _ _, _) => other "time.Time"

/-- Takes what a field with the given content holds. -/
def Content.packed : Content → Text → Except ReadError (MessagePack.Found Text)
  | .text, t => Document.packed (MessagePack.text t)
  | .literal, t => packedLiteral t

/-- Takes the size of a list; there is none if there is no value. -/
def packedSize (t : Text) : Except ReadError (MessagePack.Found (Option Nat)) :=
  match MessagePack.head t with
  | some (.nil, rest) => .ok (none, rest)
  | some (.array n, rest) => .ok (some n, rest)
  | _ => .error .packed

/-- Takes `n` values one after the other.  Each is read over the value that stands in its
place in `old`. -/
def packedItems {α : Type} (read : α → Text → Except ReadError (MessagePack.Found α)) (blank : α) :
    Nat → List α → Text → Except ReadError (MessagePack.Found (List α))
  | 0, _, t => .ok ([], t)
  | n + 1, old, t => do
    let (a, t) ← read (old.headD blank) t
    let (as, t) ← packedItems read blank n old.tail t
    pure (a :: as, t)

/-- Takes the value of a field.  A list of texts that has no value keeps what it held. -/
def Slot.ofPacked {ρ : Type} (s : Slot ρ) (r : ρ) (t : Text) :
    Except ReadError (MessagePack.Found ρ) :=
  match s.access with
  | .one _ set => do
    let (v, t) ← s.content.packed t
    pure (set r v, t)
  | .many get set => do
    match ← packedSize t with
    | (none, t) => pure (if s.content = .text then r else set r [], t)
    | (some n, t) => do
      let (vs, t) ← packedItems (fun _ => s.content.packed) [] n (get r) t
      pure (set r vs, t)

/-- How the fields of a record are read, by name and in order. -/
abbrev PackFields (ρ : Type) :=
  List (String × (ρ → Text → Except ReadError (MessagePack.Found ρ)))

/-- The fields of a record that hold text. -/
def slotFields {ρ : Type} (slots : List (Slot ρ)) : PackFields ρ :=
  slots.map fun s => (s.key, s.ofPacked)

/-- Takes smaller records over those that a record has. -/
def Kept.ofPacked {σ : Type} (read : σ → Text → Except ReadError (MessagePack.Found σ)) (blank : σ)
    (k : Kept σ) (t : Text) : Except ReadError (MessagePack.Found (Kept σ)) := do
  match ← packedSize t with
  | (none, t) => pure ({}, t)
  | (some n, t) => do
    let (ss, t) ← packedItems read blank n k.items t
    pure (.readOver k.items ss, t)

/-- The fields of a record with smaller records. -/
def draftFields {ρ σ : Type} (slots : List (Slot ρ)) (branchKey : String)
    (read : σ → Text → Except ReadError (MessagePack.Found σ)) (blank : σ) :
    PackFields (Draft ρ σ) :=
  (slotFields slots).map (fun (key, field) => (key, fun d t => do
    let (r, t) ← field d.record t
    pure ({ d with record := r }, t)))
  ++ [(branchKey, fun d t => do
    let (k, t) ← d.nested.ofPacked read blank t
    pure ({ d with nested := k }, t))]

/-- Takes `n` named fields. -/
def packedNamed {ρ : Type} (fields : PackFields ρ) :
    Nat → ρ → Text → Except ReadError (MessagePack.Found ρ)
  | 0, r, t => .ok (r, t)
  | n + 1, r, t => do
    let (k, t) ← packed (MessagePack.text t)
    match fields.find? fun f => (f.1 : Text) = k with
    | none => .error (.unknownField k)
    | some f => do
      let (r, t) ← f.2 r t
      packedNamed fields n r t

/-- Takes all fields in their order. -/
def packedInOrder {ρ : Type} :
    PackFields ρ → ρ → Text → Except ReadError (MessagePack.Found ρ)
  | [], r, t => .ok (r, t)
  | f :: fs, r, t => do
    let (r, t) ← f.2 r t
    packedInOrder fs r t

/-- Takes a record over `r`. -/
def packedRecord {ρ : Type} (fields : PackFields ρ) (blank r : ρ) (t : Text) :
    Except ReadError (MessagePack.Found ρ) :=
  match MessagePack.head t with
  | some (.nil, rest) | some (.array 0, rest) => .ok (blank, rest)
  | some (.map n, rest) => packedNamed fields n r rest
  | some (.array n, rest) =>
    if n = fields.length then packedInOrder fields r rest else .error .packed
  | _ => .error .packed

/-- Takes an argument. -/
def Argument.ofPacked : Argument → Text → Except ReadError (MessagePack.Found Argument) :=
  packedRecord (slotFields Argument.slots) {}

/-- Takes a statement. -/
def StatementDraft.ofPacked :
    StatementDraft → Text → Except ReadError (MessagePack.Found StatementDraft) :=
  packedRecord (draftFields Statement.slots Statement.branch.key Argument.ofPacked {}) ⟨{}, {}⟩

/-- Takes an element. -/
def ElementDraft.ofPacked :
    ElementDraft → Text → Except ReadError (MessagePack.Found ElementDraft) :=
  packedRecord (draftFields Element.slots Element.branch.key StatementDraft.ofPacked ⟨{}, {}⟩)
    ⟨{}, {}⟩

/-- Reads a document from MessagePack.  Bytes after it do not count. -/
def ofMessagePack (t : Text) : Except ReadError Document := do
  let (d, _) ← packedRecord (draftFields [] branch.key ElementDraft.ofPacked ⟨{}, {}⟩)
    ⟨{}, {}⟩ ⟨{}, {}⟩ t
  pure (DocumentDraft.document d)

/-! ### Writing -/

/-- The entry of a field, unless it is empty. -/
def Slot.entry {ρ : Type} (r : ρ) (s : Slot ρ) : Option (Text × Text) :=
  match s.access with
  | .one get _ =>
    if get r = [] then none else some (s.key, MessagePack.ofText (get r))
  | .many get _ =>
    if get r = [] then none
    else some (s.key, MessagePack.ofList ((get r).map MessagePack.ofText))

/-- The entry of a branch, unless it is empty. -/
def Branch.entry {ρ σ : Type} (b : Branch ρ σ) (write : σ → Text) (r : ρ) :
    Option (Text × Text) :=
  if (b.get r).isEmpty then none
  else some (b.key, MessagePack.ofList ((b.get r).map write))

/-- An argument as a map. -/
def Argument.messagePack (a : Argument) : Text :=
  MessagePack.ofEntries (Argument.slots.filterMap (Slot.entry a))

/-- A statement as a map. -/
def Statement.messagePack (s : Statement) : Text :=
  MessagePack.ofEntries (Statement.slots.filterMap (Slot.entry s)
    ++ (Statement.branch.entry Argument.messagePack s).toList)

/-- An element as a map. -/
def Element.messagePack (e : Element) : Text :=
  MessagePack.ofEntries (Element.slots.filterMap (Slot.entry e)
    ++ (Element.branch.entry Statement.messagePack e).toList)

/-- The document as MessagePack. -/
def messagePack (d : Document) : Text :=
  MessagePack.ofEntries (branch.entry Element.messagePack d).toList

end Document

end StumpGen
