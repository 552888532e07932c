import StumpGen.Text

/-!
# Decoding text into runes

`Text.runes` reads a text as UTF-8.  A well formed sequence is one character; a byte that
starts none is kept by itself (`Rune.stray`), so that nothing is lost: the bytes of the runes
are the bytes of the text.
-/

namespace StumpGen

/-- One step of reading a text as UTF-8. -/
inductive Rune where
  /-- A well formed sequence. -/
  | scalar (c : Char)
  /-- A byte that starts no well formed sequence. -/
  | stray (b : UInt8)
  deriving DecidableEq, Repr, Inhabited

namespace Rune

/-- The bytes that were read. -/
def bytes : Rune → Text
  | .scalar c => Text.ofChar c
  | .stray b => [b]

/-- The code point; a stray byte counts as U+FFFD. -/
def code : Rune → Nat
  | .scalar c => c.toNat
  | .stray _ => 0xFFFD

/-- The character; a stray byte counts as U+FFFD. -/
def char : Rune → Char
  | .scalar c => c
  | .stray _ => Char.ofNat 0xFFFD

end Rune

namespace Text

/-- Whether the byte continues a sequence. -/
def isContinuation (b : UInt8) : Bool := 0x80 ≤ b && b ≤ 0xBF

/-- The character of a well formed two byte sequence. -/
def pair? (a b : UInt8) : Option Char :=
  if 0xC2 ≤ a && a ≤ 0xDF && isContinuation b then
    some (Char.ofNat ((a.toNat - 0xC0) * 64 + (b.toNat - 0x80)))
  else none

/-- The character of a well formed three byte sequence: no overlong form and no surrogate. -/
def triple? (a b c : UInt8) : Option Char :=
  if 0xE0 ≤ a && a ≤ 0xEF && isContinuation b && isContinuation c
      && (a != 0xE0 || 0xA0 ≤ b) && (a != 0xED || b ≤ 0x9F) then
    some (Char.ofNat ((a.toNat - 0xE0) * 4096 + (b.toNat - 0x80) * 64 + (c.toNat - 0x80)))
  else none

/-- The character of a well formed four byte sequence: no overlong form, nothing past
U+10FFFF. -/
def quad? (a b c d : UInt8) : Option Char :=
  if 0xF0 ≤ a && a ≤ 0xF4 && isContinuation b && isContinuation c && isContinuation d
      && (a != 0xF0 || 0x90 ≤ b) && (a != 0xF4 || b ≤ 0x8F) then
    some (Char.ofNat ((a.toNat - 0xF0) * 262144 + (b.toNat - 0x80) * 4096
      + (c.toNat - 0x80) * 64 + (d.toNat - 0x80)))
  else none

/-- The rune that starts with the byte `a` in front of `t`, and how many bytes of `t` belong
to it. -/
def firstRune (a : UInt8) (t : Text) : Rune × Nat :=
  if a < 0x80 then (.scalar (Char.ofNat a.toNat), 0)
  else
    match (t[0]?.bind fun b => pair? a b),
      (t[0]?.bind fun b => t[1]?.bind fun c => triple? a b c),
      (t[0]?.bind fun b => t[1]?.bind fun c => t[2]?.bind fun d => quad? a b c d) with
    | some x, _, _ => (.scalar x, 1)
    | none, some x, _ => (.scalar x, 2)
    | none, none, some x => (.scalar x, 3)
    | none, none, none => (.stray a, 0)

/-- The runes that start after the first `skip` bytes. -/
def runesAfter (skip : Nat) : Text → List Rune
  | [] => []
  | a :: t =>
    match skip with
    | n + 1 => runesAfter n t
    | 0 => let r := firstRune a t; r.1 :: runesAfter r.2 t

/-- The runes of a text. -/
def runes (t : Text) : List Rune := runesAfter 0 t

/-- The text of a sequence of runes. -/
def ofRunes (rs : List Rune) : Text := rs.flatMap Rune.bytes

/-- The number of runes. -/
def runeCount (t : Text) : Nat := (runes t).length

/-- Whether the text is well formed UTF-8. -/
def isUtf8 (t : Text) : Bool := (runes t).all fun | .scalar _ => true | .stray _ => false

end Text

end StumpGen
