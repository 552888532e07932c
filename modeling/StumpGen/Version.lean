import StumpGen.Json
import StumpGen.Text.Blank
import StumpGen.Text.Style

/-!
# The version of the program

A version may have a commit and a date.  In colour, the three numbers of a version stand out.
-/

namespace StumpGen

/-- What is known of a build of the program. -/
structure Version where
  /-- The version. -/
  number : Text := "0.1.0-dev"
  /-- The commit. -/
  commit : Text := []
  /-- The date of the build. -/
  date : Text := []
  deriving DecidableEq, Repr, Inhabited

namespace Version

/-- The name of the program. -/
def tool : Text := "fstump"

/-- Splits at the first byte equal to `sep`; the second part is empty if there is none. -/
def cut (sep : UInt8) (t : Text) : Text × Text :=
  (t.takeWhile (· ≠ sep), (t.dropWhile (· ≠ sep)).drop 1)

/-- The version with its three numbers in colour, if colours are shown.  What follows a dash is
left as it is; a version without three numbers is left as it is altogether. -/
def colored (v : Version) (shown : Bool) : Text :=
  let (core, suffix) := cut 45 v.number
  match core.split 46 with
  | major :: minor :: patch :: rest =>
    Style.paint [.yellow, .bold] shown major ++ "."
      ++ Style.paint [.green, .bold] shown minor ++ "."
      ++ Style.paint [.blue, .bold] shown (Text.join "." (patch :: rest))
      ++ if suffix = [] then ([] : Text) else "-" ++ suffix
  | _ => v.number

/-- The name of the program, the version, and what else is known in brackets. -/
def text (v : Version) (number : Text) : Text :=
  let extra := [v.commit, v.date].filter (· ≠ [])
  tool ++ " " ++ number
    ++ if extra = [] then ([] : Text) else " (" ++ Text.join ", " extra ++ ")"

/-- The name of the program and the version as it is. -/
def shortLine (v : Version) : Text := tool ++ " version " ++ v.number ++ Text.newline

/-- Without blanks around its parts, and with a name for a version that has none. -/
def normal (v : Version) : Version where
  number := if v.number.trim = [] then "dev" else v.number.trim
  commit := v.commit.trim
  date := v.date.trim

/-- A part, or a word that says that it is not known. -/
def orUnknown (t : Text) : Text := if t = [] then "unknown" else t

/-- Lines with the version, and with commit and date if they are wanted. -/
def lines (v : Version) (number : Text) (commit date : Bool) : Text :=
  tool ++ " " ++ number ++ Text.newline
    ++ (if commit then "commit: " ++ orUnknown v.commit ++ Text.newline else ([] : Text))
    ++ (if date then "built:  " ++ orUnknown v.date ++ Text.newline else ([] : Text))

/-- The version as JSON, with commit and date if they are wanted. -/
def json (v : Version) (commit date : Bool) : Text :=
  Json.pretty 0 (.obj (
    [Json.field "tool" (.str tool), Json.field "version" (.str v.number)]
    ++ Json.fieldIf commit "git_commit" (.str (orUnknown v.commit))
    ++ Json.fieldIf date "build_date" (.str (orUnknown v.date)))) ++ Text.newline

end Version

end StumpGen
