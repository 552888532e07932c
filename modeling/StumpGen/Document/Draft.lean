import StumpGen.Document

/-!
# Documents while they are read

A file may give a list of records more than once.  Such a list is not read from scratch: each
record is read over the one that stood in its place before, and keeps the fields that are not
given again.  That holds for records behind the end of the list too, if it was longer at some
time, so a list that is being read remembers them (`Document.Kept`).
-/

namespace StumpGen

namespace Document

/-- A list that is being read. -/
structure Kept (α : Type) where
  /-- The records, those behind the end of the list included. -/
  items : List α := []
  /-- The length of the list, if there is one. -/
  count : Option Nat := none
  deriving Inhabited

namespace Kept

variable {α : Type}

/-- The list itself. -/
def shown (k : Kept α) : List α := k.items.take (k.count.getD 0)

/-- The list after its first records were read over `old`. -/
def readOver (old new : List α) : Kept α :=
  { items := new ++ old.drop new.length, count := some new.length }

end Kept

/-- A record that is being read. -/
structure Draft (ρ σ : Type) where
  /-- Its fields that hold text. -/
  record : ρ
  /-- Its smaller records. -/
  nested : Kept σ := {}

/-- The record, when all is read. -/
def Draft.finish {ρ σ τ : Type} (b : Branch ρ τ) (finish : σ → τ) (d : Draft ρ σ) : ρ :=
  b.set d.record (d.nested.shown.map finish)

/-- A statement that is being read. -/
abbrev StatementDraft := Draft Statement Argument

/-- An element that is being read. -/
abbrev ElementDraft := Draft Element StatementDraft

/-- A document that is being read. -/
abbrev DocumentDraft := Draft Document ElementDraft

/-- The statement, when all is read. -/
def StatementDraft.statement : StatementDraft → Statement := Draft.finish Statement.branch id

/-- The element, when all is read. -/
def ElementDraft.element : ElementDraft → Element :=
  Draft.finish Element.branch StatementDraft.statement

/-- The document, when all is read.  It has no list of elements if none was given, or if the last
one that was given had no value. -/
def DocumentDraft.document (d : DocumentDraft) : Document :=
  if d.nested.count.isSome then Draft.finish branch ElementDraft.element d else {}

end Document

end StumpGen
