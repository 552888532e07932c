import StumpGen.Assembly.Instruction

/-!
# Listings

Code generation is a sequence of emissions: labels, instructions, comments, blank lines and
origins.  A label stands in front of the next instruction, on the same line.  So a listing
remembers the label that still waits (`Listing.pending`); a label that arrives while another
one waits gives that one a `nop` of its own.

The words of a listing are its lines of code, one word each.
-/

namespace StumpGen.Assembly

/-- One step of code generation. -/
inductive Emission where
  /-- Names the next word. -/
  | label (name : Text)
  /-- A word of the image. -/
  | code (i : Instruction)
  /-- A remark. -/
  | comment (text : Text)
  /-- An empty line. -/
  | blank
  /-- Where the image starts. -/
  | origin (text : Text)
  deriving DecidableEq, Repr, Inhabited

/-- A finished line. -/
inductive Line where
  /-- A word of the image, with its label. -/
  | code (label : Option Text) (i : Instruction)
  /-- A remark. -/
  | comment (text : Text)
  /-- An empty line. -/
  | blank
  /-- Where the image starts. -/
  | origin (text : Text)
  deriving DecidableEq, Repr, Inhabited

namespace Line

/-- A line with its line feed. -/
def text : Line → Text
  | .code none i => i.text ++ Text.newline
  | .code (some l) i => l ++ " " ++ i.text ++ Text.newline
  | .comment t => "; " ++ t ++ Text.newline
  | .blank => Text.newline
  | .origin t => "org " ++ t ++ Text.newline

/-- Whether the line is a word of the image. -/
def isCode : Line → Bool
  | .code _ _ => true
  | _ => false

end Line

/-- A listing under construction. -/
structure Listing where
  /-- The finished lines. -/
  lines : Array Line := #[]
  /-- The label that waits for the next word. -/
  pending : Option Text := none
  deriving DecidableEq, Repr, Inhabited

namespace Listing

/-- Adds a word, which takes the waiting label. -/
def code (l : Listing) (i : Instruction) : Listing where
  lines := l.lines.push (.code l.pending i)
  pending := none

/-- Lets a label wait.  An empty name is no label. -/
def label (l : Listing) (name : Text) : Listing :=
  let l := if l.pending.isSome then l.code .nop else l
  { l with pending := if name.isEmpty then none else some name }

/-- Adds an emission. -/
def emit (l : Listing) : Emission → Listing
  | .label name => l.label name
  | .code i => l.code i
  | .comment t => { l with lines := l.lines.push (.comment t) }
  | .blank => { l with lines := l.lines.push .blank }
  | .origin t => { l with lines := l.lines.push (.origin t) }

/-- Adds emissions in order. -/
def emitAll (l : Listing) (es : List Emission) : Listing := es.foldl emit l

/-- The number of words. -/
def words (l : Listing) : Nat := l.lines.countP Line.isCode

/-- The text of a listing; a label that still waits stands at its end. -/
def text (l : Listing) : Text := l.lines.toList.flatMap Line.text ++ l.pending.getD []

end Listing

end StumpGen.Assembly
