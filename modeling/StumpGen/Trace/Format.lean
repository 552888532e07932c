import StumpGen.Json
import StumpGen.Trace.Event

/-!
# Trace formats

Events are written as lines of text, indented by the depth of their scope, or as one JSON
object a line.
-/

namespace StumpGen.Trace

/-- How events are written. -/
inductive Format where
  /-- As the name of the output file suggests. -/
  | auto
  /-- Lines for readers. -/
  | text
  /-- One JSON object a line. -/
  | ndjson
  deriving DecidableEq, Repr, Inhabited

namespace Format

/-- The number of a format. -/
def rank : Format → Nat
  | .auto => 0
  | .text => 1
  | .ndjson => 2

/-- The format with a given name, in any case. -/
def ofName? (t : Text) : Option Format :=
  let n := t.lower
  if n = "auto" ∨ n = "" then some .auto
  else if n = "text" then some .text
  else if n = "ndjson" ∨ n = "json" then some .ndjson
  else none

/-- What is said of a name that is no format's. -/
def unknownMessage (t : Text) : Text :=
  "invalid trace format: " ++ t.quoted ++ " (expected: auto|text|ndjson)"

/-- The format with a given name, or what is to be said of the name. -/
def parse (t : Text) : Except Text Format := (ofName? t).elim (.error (unknownMessage t)) .ok

/-- The format for an output file: JSON if its name says so, else text. -/
def resolve (f : Format) (path : Text) : Format :=
  if f = .auto then
    if path.endsWith ".ndjson" || path.endsWith ".jsonl" then .ndjson else .text
  else f

end Format

namespace Event

/-- An event as a JSON object.  A missing parent, an empty remark and empty keyed remarks are
left out. -/
def json (e : Event) : Json :=
  .obj <|
    [Json.field "time" (.str e.time.text), Json.field "seq" (.int e.seq),
      Json.field "kind" (.str e.kind.name), Json.field "scope" (.str e.scope.name),
      Json.field "span_id" (.int e.span)]
    ++ Json.fieldIf (e.parent != 0) "parent_id" (.int e.parent)
    ++ [Json.field "name" (.str e.name)]
    ++ Json.fieldIf (!e.detail.isEmpty) "detail" (.str e.detail)
    ++ Json.fieldIf (!e.extras.isEmpty) "extra"
        (.obj (e.extras.map fun x => (x.1, .str x.2)))

/-- The keyed remarks in braces. -/
def extrasText (es : Extras) : Text :=
  if es.isEmpty then []
  else " \x7b" ++ Text.join ", " (es.map fun e => e.1 ++ "=" ++ e.2) ++ "\x7d"

/-- An event as a line of text.  There is no line for a scope of depth zero, which would have
to start left of the margin. -/
def line? (e : Event) : Option Text :=
  if e.scope.depth = 0 then none
  else some <|
    "[" ++ Text.padLeft 6 (Text.ofNat e.seq) ++ "] "
      ++ Text.blanks (2 * (e.scope.depth.toNat - 1))
      ++ e.kind.mark ++ e.name
      ++ (if e.detail.isEmpty then ([] : Text) else " (" ++ e.detail ++ ")")
      ++ extrasText e.extras ++ Text.newline

/-- An event in a format. -/
def render? (f : Format) (e : Event) : Option Text :=
  if f = .ndjson then some (e.json.compact ++ Text.newline) else e.line?

/-- Events in a format, one after another. -/
def renderAll? (f : Format) : List Event → Option Text
  | [] => some []
  | e :: es =>
    match render? f e, renderAll? f es with
    | some t, some ts => some (t ++ ts)
    | _, _ => none

end Event

end StumpGen.Trace
