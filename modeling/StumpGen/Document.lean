import StumpGen.Program

/-!
# Interchange documents

A program reaches the compiler as a document: a list of elements whose fields are plain texts,
read from a hand-written or a generated file.  Every field may be empty, and an empty field
of a record is the same as a field that is not there.  The fields of each record are also given as
a list of slots, in the order in which they are written, and the readers and writers of the file
formats work from that list.
-/

namespace StumpGen

namespace Document

/-- An argument of a call; exactly one field should be set. -/
structure Argument where
  /-- The name of a variable. -/
  ident : Text := []
  /-- A literal. -/
  lit : Text := []
  /-- The name of a register. -/
  reg : Text := []
  deriving DecidableEq, Repr, Inhabited

/-- A statement; `op` selects which fields count. -/
structure Statement where
  /-- What the statement does. -/
  op : Text := []
  /-- The register that receives a result. -/
  dest : Text := []
  /-- The register that is read. -/
  src : Text := []
  /-- The left operand. -/
  left : Text := []
  /-- The right operand. -/
  right : Text := []
  /-- The register that holds a base address. -/
  base : Text := []
  /-- The register that is added to a base address. -/
  offset : Text := []
  /-- The register that holds an address. -/
  addr : Text := []
  /-- The name of a variable or label. -/
  name : Text := []
  /-- The label that is jumped to. -/
  label : Text := []
  /-- The condition of a jump. -/
  cond : Text := []
  /-- The function that is called. -/
  func : Text := []
  /-- The register that receives the result of a call. -/
  out : Text := []
  /-- A constant. -/
  value : Text := []
  /-- A shift distance. -/
  amount : Text := []
  /-- The arguments of a call. -/
  args : List Argument := []
  deriving DecidableEq, Repr, Inhabited

/-- A global or a function; `kind` selects which fields count. -/
structure Element where
  /-- What the element is. -/
  kind : Text := []
  /-- Its name. -/
  name : Text := []
  /-- The value of a literal. -/
  value : Text := []
  /-- The values of an array. -/
  values : List Text := []
  /-- The size of a block. -/
  size : Text := []
  /-- The characters of a string. -/
  text : Text := []
  /-- The parameters of a function. -/
  params : List Text := []
  /-- The statements of a function. -/
  body : List Statement := []
  deriving DecidableEq, Repr, Inhabited

/-- What a slot holds: any text, or a literal, which may also be written as an integer. -/
inductive Content where
  /-- A text. -/
  | text
  /-- A literal. -/
  | literal
  deriving DecidableEq, Repr, Inhabited

/-- How a field of a record is reached. -/
inductive Access (ρ : Type) where
  /-- The field holds one text. -/
  | one (get : ρ → Text) (set : ρ → Text → ρ)
  /-- The field holds a list of texts. -/
  | many (get : ρ → List Text) (set : ρ → List Text → ρ)

/-- A field of a record that holds text. -/
structure Slot (ρ : Type) where
  /-- The name of the field in files. -/
  key : String
  /-- What it holds. -/
  content : Content := .text
  /-- Where it is kept. -/
  access : Access ρ
  /-- Whether text formats write it even when it is empty. -/
  always : Bool := false

/-- The field that holds a list of smaller records. -/
structure Branch (ρ σ : Type) where
  /-- The name of the field in files. -/
  key : String
  /-- The records. -/
  get : ρ → List σ
  /-- Replaces them. -/
  set : ρ → List σ → ρ

/-- The fields of an argument. -/
def Argument.slots : List (Slot Argument) :=
  [{ key := "ident", access := .one ident fun a t => { a with ident := t } },
   { key := "lit", content := .literal, access := .one lit fun a t => { a with lit := t } },
   { key := "reg", access := .one reg fun a t => { a with reg := t } }]

/-- The fields of a statement that hold text. -/
def Statement.slots : List (Slot Statement) :=
  [{ key := "op", access := .one op fun s t => { s with op := t }, always := true },
   { key := "dest", access := .one dest fun s t => { s with dest := t } },
   { key := "src", access := .one src fun s t => { s with src := t } },
   { key := "left", access := .one left fun s t => { s with left := t } },
   { key := "right", access := .one right fun s t => { s with right := t } },
   { key := "base", access := .one base fun s t => { s with base := t } },
   { key := "offset", access := .one offset fun s t => { s with offset := t } },
   { key := "addr", access := .one addr fun s t => { s with addr := t } },
   { key := "name", access := .one name fun s t => { s with name := t } },
   { key := "label", access := .one label fun s t => { s with label := t } },
   { key := "cond", access := .one cond fun s t => { s with cond := t } },
   { key := "func", access := .one func fun s t => { s with func := t } },
   { key := "out", access := .one out fun s t => { s with out := t } },
   { key := "value", content := .literal, access := .one value fun s t => { s with value := t } },
   { key := "amount", content := .literal,
     access := .one amount fun s t => { s with amount := t } }]

/-- The arguments of a statement. -/
def Statement.branch : Branch Statement Argument :=
  { key := "args", get := args, set := fun s as => { s with args := as } }

/-- The fields of an element that hold text. -/
def Element.slots : List (Slot Element) :=
  [{ key := "kind", access := .one kind fun e t => { e with kind := t }, always := true },
   { key := "name", access := .one name fun e t => { e with name := t }, always := true },
   { key := "value", content := .literal, access := .one value fun e t => { e with value := t } },
   { key := "values", content := .literal,
     access := .many values fun e ts => { e with values := ts } },
   { key := "size", content := .literal, access := .one size fun e t => { e with size := t } },
   { key := "text", access := .one text fun e t => { e with text := t } },
   { key := "params", access := .many params fun e ts => { e with params := ts } }]

/-- The statements of an element. -/
def Element.branch : Branch Element Statement :=
  { key := "body", get := body, set := fun e ss => { e with body := ss } }

end Document

/-- A document: its elements in order.  The list of its elements may be missing, which only shows
in what is written for it. -/
structure Document where
  /-- The list of the elements, if there is one. -/
  elements? : Option (List Document.Element) := none
  deriving DecidableEq, Repr, Inhabited

namespace Document

/-- The elements of a document. -/
def elements (d : Document) : List Element := d.elements?.getD []

/-- The elements of a document. -/
def branch : Branch Document Element :=
  { key := "element", get := elements, set := fun _ es => ⟨some es⟩ }

end Document

end StumpGen
