import StumpGen.Fault
import StumpGen.Timer

/-!
# Stages and progress of a build

A unit passes through three stages.  While a build runs it reports what each unit is doing, and
it adds up the time that the stages take.
-/

namespace StumpGen

namespace Build

/-- A stage of a unit.  An event that belongs to no stage has an empty name, and an observer may
be told of stages that a build does not have. -/
structure Stage where
  /-- The name. -/
  name : Text := []
  deriving DecidableEq, Repr, Inhabited

namespace Stage

/-- The program is read. -/
def load : Stage := ⟨"load"⟩

/-- The code is generated. -/
def codegen : Stage := ⟨"codegen"⟩

/-- The listing is written. -/
def write : Stage := ⟨"write"⟩

/-- The stages in their order. -/
def all : List Stage := [load, codegen, write]

/-- What is said when a stage is over. -/
def doneLabel (s : Stage) : Text :=
  if s = load then "loaded"
  else if s = codegen then "generated"
  else if s = write then "written"
  else []

end Stage

/-- The state of a unit. -/
structure Status where
  /-- The name. -/
  name : Text := []
  deriving DecidableEq, Repr, Inhabited

namespace Status

/-- Not yet begun. -/
def queued : Status := ⟨"queued"⟩

/-- In a stage. -/
def working : Status := ⟨"working"⟩

/-- Over. -/
def done : Status := ⟨"done"⟩

/-- Over, because the output was up to date. -/
def cached : Status := ⟨"cached"⟩

/-- Over, because of an error. -/
def error : Status := ⟨"error"⟩

end Status

/-- Something that happened to a unit, or to the whole build if no file is given. -/
structure Event where
  /-- The file of the unit. -/
  file : Text := []
  /-- The stage it is in. -/
  stage : Stage := {}
  /-- Its state. -/
  status : Status
  /-- Why it failed. -/
  failure : Option Failure := none
  deriving DecidableEq, Repr, Inhabited

/-- The time that stages took, added up over all units. -/
structure Timings where
  /-- The stages with their times. -/
  stages : List (Stage × Duration) := []
  deriving DecidableEq, Repr, Inhabited

namespace Timings

/-- Whether a time is known for a stage. -/
def has (t : Timings) (s : Stage) : Bool := (t.stages.lookup s).isSome

/-- The time of a stage. -/
def duration (t : Timings) (s : Stage) : Duration := (t.stages.lookup s).getD {}

/-- Adds to the time of a stage. -/
def add (t : Timings) (s : Stage) (d : Duration) : Timings :=
  ⟨(s, t.duration s + d) :: t.stages.filter (·.1 ≠ s)⟩

/-- The time of some stages together. -/
def sum (t : Timings) (ss : List Stage) : Duration :=
  ss.foldl (fun d s => d + t.duration s) {}

/-- A line for each stage whose time is known. -/
def text (t : Timings) : Text :=
  (Stage.all.filter t.has).flatMap fun s =>
    s.doneLabel ++ " " ++ (t.duration s).text 1 ++ " ms" ++ Text.newline

end Timings

end Build

end StumpGen
