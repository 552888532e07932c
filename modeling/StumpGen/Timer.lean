import StumpGen.Json
import StumpGen.Text.Decimal

/-!
# Phases and their durations

The phases of a compilation are measured in nanoseconds and shown in milliseconds.
-/

namespace StumpGen

/-- A length of time. -/
structure Duration where
  /-- Nanoseconds. -/
  nanos : Int := 0
  deriving DecidableEq, Repr, Inhabited

namespace Duration

/-- In milliseconds. -/
def millis (d : Duration) : Float := (Int64.ofInt d.nanos).toFloat / 1000000

/-- In milliseconds, with a number of places. -/
def text (places : Nat) (d : Duration) : Text := Decimal.ofFloat places d.millis

instance : Add Duration := ⟨fun a b => ⟨a.nanos + b.nanos⟩⟩

end Duration

/-- A phase that has ended. -/
structure Phase where
  /-- Its name. -/
  name : Text
  /-- How it ended, if there is anything to say. -/
  note : Text := []
  /-- How long it took. -/
  duration : Duration := {}
  deriving DecidableEq, Repr, Inhabited

/-- The phases of a compilation in their order. -/
structure Timer where
  /-- The phases. -/
  phases : List Phase := []
  deriving DecidableEq, Repr, Inhabited

namespace Timer

/-- Adds a phase. -/
def add (t : Timer) (p : Phase) : Timer := ⟨t.phases ++ [p]⟩

/-- The time of all phases. -/
def total (t : Timer) : Duration := t.phases.foldl (fun d p => d + p.duration) {}

/-- A name and a duration in columns. -/
def row (name : Text) (d : Duration) : Text :=
  "  " ++ name ++ Text.blanks (12 - name.runeCount) ++ " "
    ++ Text.padLeft 7 (d.text 2) ++ " ms"

/-- The row of a phase. -/
def phaseRow (p : Phase) : Text :=
  row p.name p.duration ++ (if p.note = [] then ([] : Text) else "  // " ++ p.note)
    ++ Text.newline

/-- The phases in rows, and their total. -/
def summary (t : Timer) : Text :=
  "timings:" ++ Text.newline ++ t.phases.flatMap phaseRow ++ row "total" t.total ++ Text.newline

/-- The summary for a file. -/
def report (t : Timer) (file : Text) : Text :=
  (if file = [] then ([] : Text) else file ++ " ") ++ t.summary

/-- A duration as a JSON number, exact to the nanosecond and without trailing zeros. -/
def jsonMillis (d : Duration) : Json :=
  let n := d.nanos.natAbs
  let sign : Text := if d.nanos < 0 then "-" else ""
  let whole := Text.ofNat (n / 1000000)
  let fraction := (Text.padZeros 6 (Text.ofNat (n % 1000000))).reverse.dropWhile (· = 48)
  .num (sign ++ whole ++ if fraction = [] then ([] : Text) else "." ++ fraction.reverse)

/-- A phase as JSON. -/
def jsonPhase (p : Phase) : Json :=
  .obj ([Json.field "name" (.str p.name), Json.field "duration_ms" (jsonMillis p.duration)]
    ++ Json.fieldIf (!p.note.isEmpty) "note" (.str p.note))

end Timer

end StumpGen
