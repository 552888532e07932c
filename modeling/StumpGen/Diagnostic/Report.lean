import StumpGen.Diagnostic.Bag
import StumpGen.Json
import StumpGen.Path.Display
import StumpGen.Text.Style

/-!
# Reports of diagnostics

A bag is reported as lines for readers or as a JSON document.
-/

namespace StumpGen

namespace Report

/-- How files are shown in a report. -/
structure Paths where
  /-- Where relative paths start. -/
  cwd : Text := [Path.slash]
  /-- What is shown of a path. -/
  mode : Path.Display := .auto
  /-- The base directory. -/
  base : Text := []
  deriving DecidableEq, Repr, Inhabited

/-- A file as it is shown. -/
def Paths.show (p : Paths) (file : Text) : Text := Path.display p.cwd p.mode p.base file

/-- A place as it is shown. -/
def Paths.place (p : Paths) (l : Location) : Location := { l with file := p.show l.file }

/-! ### Lines -/

/-- The style of a severity's name. -/
def severityStyle (s : Severity) : Style :=
  if s = .error then [.red, .bold]
  else if s = .warning then [.yellow, .bold]
  else [.cyan]

/-- A place and a colon in front of a message, if anything is known of the place. -/
def placeBefore (l : Location) (paint : Text → Text) : Text :=
  if l.isUnknown then [] else paint l.text ++ ": "

/-- The line of a note. -/
def noteLine (paths : Paths) (n : Note) : Text :=
  "  note: " ++ placeBefore (paths.place n.location) id ++ n.message ++ Text.newline

/-- The lines of a diagnostic: place, severity, identifier and message, then its notes if they
are wanted. -/
def lines (paths : Paths) (color notes : Bool) (d : Diagnostic) : Text :=
  placeBefore (paths.place d.location) (Style.paint [.bold] color)
    ++ (severityStyle d.severity).paint color d.severity.name ++ " "
    ++ Style.paint [.gray] color d.code.id ++ ": " ++ d.message ++ Text.newline
    ++ if notes then d.notes.flatMap (noteLine paths) else ([] : Text)

/-- A bag as lines for readers. -/
def pretty (paths : Paths) (color notes : Bool) (b : Bag) : Text :=
  b.items.flatMap (lines paths color notes)

/-! ### JSON -/

/-- A place; unknown parts are left out. -/
def jsonPlace (paths : Paths) (l : Location) : Json :=
  let l := paths.place l
  .obj (Json.fieldIf (!l.file.isEmpty) "file" (.str l.file)
    ++ Json.fieldIf (!l.element.isEmpty) "func" (.str l.element)
    ++ Json.fieldIf (l.statement != 0) "stmt" (.int l.statement))

/-- A note. -/
def jsonNote (paths : Paths) (n : Note) : Json :=
  .obj [Json.field "message" (.str n.message), Json.field "location" (jsonPlace paths n.location)]

/-- A diagnostic; its notes are left out unless they are wanted and there are some. -/
def jsonDiagnostic (paths : Paths) (notes : Bool) (d : Diagnostic) : Json :=
  .obj <|
    [Json.field "severity" (.str d.severity.name), Json.field "code" (.str d.code.id),
      Json.field "title" (.str d.code.title), Json.field "message" (.str d.message),
      Json.field "location" (jsonPlace paths d.location)]
    ++ Json.fieldIf (notes && !d.notes.isEmpty) "notes" (.arr (d.notes.map (jsonNote paths)))

/-- A bag as a JSON document with at most `max` diagnostics, or all of them if `max` is not
positive. -/
def json (paths : Paths) (notes : Bool) (max : Int) (b : Bag) : Text :=
  let items := if 0 < max then b.items.take max.toNat else b.items
  Json.pretty 0 (.obj [
    Json.field "diagnostics" (.arr (items.map (jsonDiagnostic paths notes))),
    Json.field "count" (.int items.length)]) ++ Text.newline

end Report

end StumpGen
