import StumpGen.Text.Canonical
import StumpGen.Text.Rune

/-!
# The canonical composed form

String data is stored in the canonical composed form, so that one visible character is one
word wherever a composed character exists.  `Text.composed` takes characters apart, sorts the
marks after each base by their combining class and puts pairs together again.  Stray bytes are
left alone and compose with nothing.

A run of marks is broken after thirty: a joiner (U+034F) is put in between, which bounds the
work that a reader of the text has to do.
-/

namespace StumpGen

namespace Composition

/-- The combining class of a code point. -/
def combiningClass (n : Nat) : Nat :=
  if n < 0x300 then 0
  else match CodeTable.combiningRanges.find? fun r => r.1 ≤ n && n ≤ r.2.1 with
    | some r => r.2.2
    | none => 0

/-- Hangul syllables in two or three parts. -/
def hangulParts (n : Nat) : List Nat :=
  let s := n - 0xAC00
  let tail := s % 28
  [0x1100 + s / 588, 0x1161 + s % 588 / 28] ++ (if tail = 0 then [] else [0x11A7 + tail])

/-- The full canonical decomposition of a code point. -/
def parts (n : Nat) : List Nat :=
  if n < 0xC0 then [n]
  else if 0xAC00 ≤ n && n ≤ 0xD7A3 then hangulParts n
  else (CodeTable.decompositions.lookup n).getD [n]

/-- The composite of two code points, if there is one. -/
def pair? (a b : Nat) : Option Nat :=
  if 0x1100 ≤ a && a ≤ 0x1112 && 0x1161 ≤ b && b ≤ 0x1175 then
    some (0xAC00 + ((a - 0x1100) * 21 + (b - 0x1161)) * 28)
  else if 0xAC00 ≤ a && a ≤ 0xD7A3 && (a - 0xAC00) % 28 = 0 && 0x11A8 ≤ b && b ≤ 0x11C2 then
    some (a + (b - 0x11A7))
  else if b < 0x300 then none
  else (CodeTable.compositions.find? fun c => c.1 == a && c.2.1 == b).map (·.2.2)

/-- A code point, or a stray byte, with its combining class. -/
structure Mark where
  /-- The rune. -/
  rune : Rune
  /-- Its combining class; zero for a base. -/
  rank : Nat

/-- The mark of a code point. -/
def Mark.ofCode (n : Nat) : Mark := { rune := .scalar (Char.ofNat n), rank := combiningClass n }

/-- A rune taken apart. -/
def marksOf : Rune → List Mark
  | .scalar c => (parts c.toNat).map Mark.ofCode
  | .stray b => [{ rune := .stray b, rank := 0 }]

/-- The most marks in a row. -/
def maxRun : Nat := 30

/-- The runes taken apart, with a joiner wherever a run of marks would grow too long; `run` is
the length of the current run. -/
def takeApart (run : Nat) : List Rune → List Mark
  | [] => []
  | r :: rs =>
    let ms := marksOf r
    let leading := (ms.takeWhile (·.rank != 0)).length
    let trailing := (ms.reverse.takeWhile (·.rank != 0)).length
    if leading = 0 then ms ++ takeApart trailing rs
    else if maxRun < run + leading then Mark.ofCode 0x34F :: ms ++ takeApart leading rs
    else ms ++ takeApart (run + leading) rs

/-- Puts a mark in its place among those at the end of a list (last one first): in front of
the marks of a higher class, back to the base. -/
def insertMark (m : Mark) : List Mark → List Mark
  | [] => [m]
  | x :: xs => if m.rank < x.rank && m.rank != 0 then x :: insertMark m xs else m :: x :: xs

/-- The marks in canonical order. -/
def reorder (ms : List Mark) : List Mark := (ms.foldl (fun acc m => insertMark m acc) []).reverse

/-- A base with the marks that did not compose with it (last one first). -/
structure Cluster where
  /-- The base. -/
  base : Mark
  /-- The marks that follow it, last one first. -/
  rest : List Mark := []

/-- The finished marks (last one first) and the cluster being composed. -/
abbrev State := List Mark × Option Cluster

/-- The cluster closed. -/
def State.close : State → List Mark
  | (done, none) => done
  | (done, some c) => c.rest ++ c.base :: done

/-- Opens a cluster at a base; a mark without a base is finished at once. -/
def State.start (s : State) (m : Mark) : State :=
  if m.rank = 0 then (s.close, some { base := m }) else (m :: s.close, none)

/-- The composite of a base and a mark. -/
def compose? (base m : Mark) : Option Mark :=
  match base.rune, m.rune with
  | .scalar a, .scalar b =>
    (pair? a.toNat b.toNat).map fun n => { rune := .scalar (Char.ofNat n), rank := 0 }
  | _, _ => none

/-- Adds a mark: it composes with the base unless a mark of its class or higher, or another
base, stands between them. -/
def State.add (s : State) (m : Mark) : State :=
  match s.2 with
  | none => s.start m
  | some c =>
    let blocked := match c.rest with
      | [] => false
      | last :: _ => last.rank == 0 || m.rank ≤ last.rank
    match if blocked then none else compose? c.base m with
    | some b => (s.1, some { c with base := b })
    | none => if m.rank = 0 then s.start m else (s.1, some { c with rest := m :: c.rest })

/-- The marks composed. -/
def compose (ms : List Mark) : List Mark :=
  (State.close (ms.foldl State.add ([], none))).reverse

end Composition

/-- The canonical composed form of a text. -/
def Text.composed (t : Text) : Text :=
  (Composition.compose (Composition.reorder (Composition.takeApart 0 t.runes))).flatMap
    (·.rune.bytes)

end StumpGen
