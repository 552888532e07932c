import StumpGen.Build.Stage
import StumpGen.Text.Width

/-!
# The progress display

While a build runs, a terminal shows a line for each unit and a bar.  The display keeps the
state of each unit (`Progress.Item`) and changes it with the events of the build.  When a file
is listed more than once, its last line is the one that changes.
-/

namespace StumpGen

namespace Progress

/-- What a unit is doing. -/
inductive State where
  /-- It waits. -/
  | queued
  /-- Its program is read. -/
  | loading
  /-- Its code is generated. -/
  | generating
  /-- Its listing is written. -/
  | writing
  /-- It is over. -/
  | done
  /-- It was up to date. -/
  | cached
  /-- It failed. -/
  | error
  deriving DecidableEq, Repr, Inhabited

namespace State

/-- The word for a state. -/
def label : State → Text
  | .queued => "queued"
  | .loading => "loading"
  | .generating => "generating"
  | .writing => "writing"
  | .done => "done"
  | .cached => "cached"
  | .error => "error"

/-- Whether nothing more happens to the unit. -/
def isFinal : State → Bool
  | .done | .cached | .error => true
  | _ => false

/-- The state of a unit that works in a stage. -/
def ofStage? (s : Build.Stage) : Option State :=
  if s = .load then some .loading
  else if s = .codegen then some .generating
  else if s = .write then some .writing
  else none

/-- The state that an event reports. -/
def ofEvent? (e : Build.Event) : Option State :=
  if e.status = .queued then some .queued
  else if e.status = .done then some .done
  else if e.status = .cached then some .cached
  else if e.status = .error then some .error
  else if e.status = .working then ofStage? e.stage
  else none

end State

/-- The line of a unit. -/
structure Item where
  /-- Its file. -/
  file : Text
  /-- What it is doing. -/
  state : State := .queued
  /-- The stage it is in. -/
  stage : Build.Stage := {}
  deriving DecidableEq, Repr, Inhabited

/-- How far a unit that has reached a stage has come. -/
def stagePart (s : Build.Stage) : Float :=
  if s = .load then 0.2
  else if s = .codegen then 0.5
  else if s = .write then 0.9
  else 0

/-- How far a unit has come. -/
def Item.part (i : Item) : Float := if i.state.isFinal then 1 else stagePart i.stage

/-- Changes the last element that satisfies `p`. -/
def modifyLast {α : Type} (p : α → Bool) (f : α → α) : List α → List α
  | [] => []
  | a :: as => if p a && !as.any p then f a :: as else a :: modifyLast p f as

end Progress

/-- The progress display of a build. -/
structure Progress where
  /-- The title. -/
  title : Text
  /-- The units. -/
  items : List Progress.Item
  /-- What the build as a whole is doing. -/
  overall : Option Progress.State := none
  /-- The width of the terminal. -/
  width : Int := 80
  /-- The frame of the spinner. -/
  frame : Nat := 0
  /-- Whether the build is over. -/
  isDone : Bool := false
  deriving DecidableEq, Repr, Inhabited

namespace Progress

/-- The display of a build that begins. -/
def start (title : Text) (files : List Text) : Progress :=
  { title, items := files.map fun f => { file := f } }

/-- What may happen to a display. -/
inductive Message where
  /-- The build reports an event. -/
  | event (e : Build.Event)
  /-- The terminal changes its width. -/
  | resize (width : Int)
  /-- Time passes. -/
  | tick
  /-- The build is over. -/
  | finish
  deriving Inhabited

/-- Applies an event of the build.  An event without a file is about the whole build, and one
for a file that is not listed changes nothing. -/
def apply (p : Progress) (e : Build.Event) : Progress :=
  match State.ofEvent? e with
  | none => p
  | some s =>
    if e.file = [] then { p with overall := some s }
    else { p with items := modifyLast (·.file = e.file)
                    (fun i => { i with state := s, stage := e.stage }) p.items }

/-- The frames of the spinner. -/
def frames : List String := ["⣾ ", "⣽ ", "⣻ ", "⢿ ", "⡿ ", "⣟ ", "⣯ ", "⣷ "]

/-- Applies a message. -/
def update (p : Progress) : Message → Progress
  | .event e => p.apply e
  | .resize w => if 0 < w then { p with width := w } else p
  | .tick => if p.isDone then p else { p with frame := (p.frame + 1) % frames.length }
  | .finish => { p with isDone := true }

/-- The display after all events of a build that is over. -/
def final (title : Text) (files : List Text) (events : List Build.Event) : Progress :=
  (events.foldl apply (start title files)).update .finish

/-- How far the build has come: the mean over its units. -/
def completion (p : Progress) : Float :=
  if p.items.isEmpty then 0
  else p.items.foldl (fun t i => t + i.part) 0 / p.items.length.toFloat

/-- The first line: the spinner, or that the build is over, the title, and what the build as a
whole is doing. -/
def header (p : Progress) : Text :=
  let title := match p.overall with
    | some s => p.title ++ " (" ++ s.label ++ ")"
    | none => p.title
  if p.isDone then "done: " ++ title
  else Text.ofString (frames.getD p.frame "") ++ " " ++ title

/-- The columns for the name of a unit. -/
def nameWidth (p : Progress) : Int := max 20 (p.width - 16)

/-- The line of a unit. -/
def itemLine (p : Progress) (i : Item) : Text :=
  "  " ++ Text.padLeft 12 i.state.label ++ " " ++ i.file.shorten p.nameWidth ++ Text.newline

/-- The bar, which stays empty until the build is over. -/
def bar (p : Progress) : Text :=
  let cells := (p.width - 9).toNat
  let cell : Text := if p.isDone then "█" else "░"
  (List.replicate cells cell).flatten ++ if p.isDone then " 100%" else "   0%"

/-- What the terminal shows; nothing if there are no units. -/
def view (p : Progress) : Text :=
  if p.items.isEmpty then []
  else p.header ++ Text.newline ++ Text.newline ++ p.items.flatMap p.itemLine
    ++ Text.newline ++ p.bar ++ Text.newline

end Progress

end StumpGen
