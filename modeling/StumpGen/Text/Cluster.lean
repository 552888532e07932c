import StumpGen.Text.Joining
import StumpGen.Text.Rune

/-!
# Characters as readers see them

What a reader takes for one character may be several: a letter with its accents, the parts of
a syllable, two letters that make a flag.  `Text.clusters` splits a text between those.
-/

namespace StumpGen

namespace Cluster

/-- How a character joins with its neighbours. -/
inductive Joining where
  /-- It joins with marks only. -/
  | other
  /-- It joins with nothing. -/
  | control
  /-- Carriage return, which joins with a line feed. -/
  | carriageReturn
  /-- Line feed. -/
  | lineFeed
  /-- It joins with what is in front of it. -/
  | extending
  /-- It joins with what is in front of it, and ties pictures together. -/
  | joiner
  /-- One half of a flag. -/
  | flagHalf
  /-- It joins with what is behind it. -/
  | prepended
  /-- It joins with what is in front of it. -/
  | spacingMark
  /-- The first part of a syllable. -/
  | leading
  /-- The middle part of a syllable. -/
  | vowel
  /-- The last part of a syllable. -/
  | trailing
  /-- A syllable without its last part. -/
  | openSyllable
  /-- A whole syllable. -/
  | closedSyllable
  /-- A picture. -/
  | picture
  deriving DecidableEq, Repr, Inhabited

/-- How a code point joins with its neighbours. -/
def joining (n : Nat) : Joining :=
  if n < 0x300 then
    if n = 13 then .carriageReturn
    else if n = 10 then .lineFeed
    else if n < 32 ∨ (127 ≤ n ∧ n < 160) ∨ n = 0xad then .control
    else if n = 0xa9 ∨ n = 0xae then .picture
    else .other
  else if n = 0x200d then .joiner
  else if 0x1f1e6 ≤ n ∧ n ≤ 0x1f1ff then .flagHalf
  else if (0x1100 ≤ n ∧ n ≤ 0x115f) ∨ (0xa960 ≤ n ∧ n ≤ 0xa97c) then .leading
  else if (0x1160 ≤ n ∧ n ≤ 0x11a7) ∨ (0xd7b0 ≤ n ∧ n ≤ 0xd7c6) then .vowel
  else if (0x11a8 ≤ n ∧ n ≤ 0x11ff) ∨ (0xd7cb ≤ n ∧ n ≤ 0xd7fb) then .trailing
  else if 0xac00 ≤ n ∧ n ≤ 0xd7a3 then
    if (n - 0xac00) % 28 = 0 then .openSyllable else .closedSyllable
  else if CodeTable.extending.contains n then .extending
  else if CodeTable.spacingMarks.contains n then .spacingMark
  else if CodeTable.prepended.contains n then .prepended
  else if CodeTable.controls.contains n then .control
  else if CodeTable.pictures.contains n then .picture
  else .other

/-- What is known of the characters in front of a place. -/
structure Before where
  /-- How the last one joins. -/
  last : Joining
  /-- Whether the last one is the first half of a flag. -/
  openFlag : Bool := false
  /-- Whether they end in a picture with marks. -/
  picture : Bool := false
  /-- Whether they end in a picture with marks and a joiner. -/
  tied : Bool := false

/-- Nothing is known at the start of a cluster. -/
def Before.start : Before where
  last := .other

/-- What is known behind the next character. -/
def Before.next (b : Before) (j : Joining) : Before where
  last := j
  openFlag := j = .flagHalf && !b.openFlag
  picture := j = .picture || (b.picture && j = .extending)
  tied := b.picture && j = .joiner

/-- Whether a character joins the one in front of it. -/
def Before.joins (b : Before) (j : Joining) : Bool :=
  match b.last, j with
  | .carriageReturn, .lineFeed => true
  | .control, _ | .carriageReturn, _ | .lineFeed, _ => false
  | _, .control | _, .carriageReturn | _, .lineFeed => false
  | .leading, .leading | .leading, .vowel | .leading, .openSyllable
  | .leading, .closedSyllable => true
  | .openSyllable, .vowel | .openSyllable, .trailing | .vowel, .vowel | .vowel, .trailing => true
  | .closedSyllable, .trailing | .trailing, .trailing => true
  | _, .extending | _, .joiner | _, .spacingMark => true
  | .prepended, _ => true
  | .flagHalf, .flagHalf => b.openFlag
  | .joiner, .picture => b.tied
  | _, _ => false

/-- Splits the rest of a text, given the cluster so far, last character first. -/
def splitAfter (b : Before) (current : List Rune) : List Rune → List (List Rune)
  | [] => [current.reverse]
  | r :: rs =>
    let j := joining r.code
    if b.joins j then splitAfter (b.next j) (r :: current) rs
    else current.reverse :: splitAfter (Before.start.next j) [r] rs

end Cluster

/-- The characters of a text as readers see them. -/
def Text.clusters (t : Text) : List (List Rune) :=
  match t.runes with
  | [] => []
  | r :: rs => Cluster.splitAfter (Cluster.Before.start.next (Cluster.joining r.code)) [r] rs

end StumpGen
