import StumpGen.Text.Blank
import StumpGen.Text.Case
import StumpGen.Text.Quoted

/-!
# Settings with a fixed choice of values

Some options take one of a few words.  Case and blanks around a word do not count, and no word
is the same as `auto`.
-/

namespace StumpGen

/-- Whether something is done: as the surroundings suggest, always, or never. -/
inductive Switch where
  /-- As the surroundings suggest. -/
  | auto
  /-- Always. -/
  | on
  /-- Never. -/
  | off
  deriving DecidableEq, Repr, Inhabited

namespace Switch

/-- The word for a setting. -/
def name : Switch → Text
  | .auto => "auto"
  | .on => "on"
  | .off => "off"

/-- What a switch comes to, given what the surroundings suggest. -/
def resolve (s : Switch) (suggested : Bool) : Bool :=
  match s with
  | .auto => suggested
  | .on => true
  | .off => false

/-- What is said of a word that is no setting. -/
def invalidMessage (option value : Text) : Text :=
  "invalid --" ++ option ++ " value " ++ value.quoted ++ " (expected auto|on|off)"

/-- The setting of the progress display. -/
def ofProgress (value : Text) : Except Text Switch :=
  let w := value.trim.lower
  if w = [] ∨ w = "auto" then .ok .auto
  else if w = "on" then .ok .on
  else if w = "off" then .ok .off
  else .error (invalidMessage "ui" value)

/-- The setting of colours, which has a second word for on and off. -/
def ofColor (value : Text) : Except Text Switch :=
  let w := value.trim.lower
  if w = [] ∨ w = "auto" then .ok .auto
  else if w = "on" ∨ w = "always" then .ok .on
  else if w = "off" ∨ w = "never" then .ok .off
  else .error (invalidMessage "color" value)

end Switch

end StumpGen
