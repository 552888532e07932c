import StumpGen.Literal
import StumpGen.Proofs.PlainText
import Mathlib.Data.List.Forall2
import Mathlib.Data.Nat.Digits.Defs

/-!
# The grammar of literals

A literal is read in two steps: its kind is told from its first bytes, and then its digits are read
from left to right.  This file states which texts denote which numbers without either step, as a
grammar, and proves that the two steps together accept exactly this grammar.

* `Numeral.Reads` : an optional sign and digits, with the integer that they denote.
  `Numeral.Overflows` : a number that leaves 64 bits.  Digits are read up to the first byte that is
  none, so an overflow in front of such a byte counts and one behind it does not.
* `Numeral.readDigits_eq_ok`, `Numeral.readDigits_eq_overflow` : what reading digits gives, by
  induction over the digits that are left.  The digits that were read before are kept in the
  statement, and the accumulated number is their magnitude.
* `Literal.Denotes`, `Literal.Unsupported` : the literals with their values, and the texts that are
  understood but not supported.
* `Literal.ofToken_value_iff` : **a token has the value that the grammar gives it**, and a token
  without a value is malformed unless it is unsupported.
-/

namespace StumpGen

namespace Numeral

/-! ### Digits and magnitudes -/

/-- The byte `b` is the digit `d` of a base: `0`–`9`, then letters in either case. -/
def IsDigit (base : Nat) (b : UInt8) (d : Nat) : Prop :=
  d < base ∧
    (d ≤ 9 ∧ b.toNat = 48 + d ∨ 10 ≤ d ∧ d ≤ 35 ∧ (b.toNat = 55 + d ∨ b.toNat = 87 + d))

/-- The text `t` is the sequence of digits `ds` of a base. -/
def Spells (base : Nat) (t : Text) (ds : List Nat) : Prop := List.Forall₂ (IsDigit base) t ds

/-- The number with given digits, of which the first one counts most. -/
def magnitude (base : Nat) (ds : List Nat) : Nat := Nat.ofDigits base ds.reverse

/-- The signs that may stand in front of digits, with the factors that they stand for. -/
def signs : List (Text × Int) := [([], 1), ("+", 1), ("-", -1)]

/-- The text `t` is an optional sign and one or more digits of a base that denote `v`. -/
def Reads (base : Nat) (t : Text) (v : Int) : Prop :=
  ∃ s ∈ signs, ∃ u ds, t = s.1 ++ u ∧ u ≠ [] ∧ Spells base u ds ∧ v = s.2 * magnitude base ds

/-- The integer is a signed number of 64 bits. -/
def Fits (v : Int) : Prop := -2 ^ 63 ≤ v ∧ v ≤ 2 ^ 63 - 1

/-- The number that starts the text `t` leaves 64 bits: either its unsigned magnitude does so at
some digit that only digits precede, or all of `t` is a number and its value does. -/
def Overflows (base : Nat) (t : Text) : Prop :=
  (∃ s ∈ signs, ∃ u ds, s.1 ++ u <+: t ∧ Spells base u ds ∧ 2 ^ 64 - 1 < magnitude base ds) ∨
    ∃ v, Reads base t v ∧ ¬ Fits v

theorem digitIn?_eq_some {base : Nat} {b : UInt8} {d : Nat} :
    digitIn? base b = some d ↔ IsDigit base b d := by
  simp only [digitIn?, digitValue?, IsDigit, UInt8.le_iff_toNat_le, UInt8.reduceToNat,
    Option.filter_eq_some_iff, decide_eq_true_eq]
  split
  · simp only [Option.some.injEq]
    omega
  · split
    · simp only [Option.some.injEq]
      omega
    · split
      · simp only [Option.some.injEq]
        omega
      · simp only [reduceCtorEq, false_and, false_iff]
        omega

theorem digitIn?_eq_none {base : Nat} {b : UInt8} :
    digitIn? base b = none ↔ ∀ d, ¬ IsDigit base b d := by
  simp only [Option.eq_none_iff_forall_ne_some, ne_eq, digitIn?_eq_some]

/-- A byte is at most one digit of a base. -/
theorem IsDigit.unique {base : Nat} {b : UInt8} {d e : Nat} (hd : IsDigit base b d)
    (he : IsDigit base b e) : d = e :=
  Option.some.inj ((digitIn?_eq_some.2 hd).symm.trans (digitIn?_eq_some.2 he))

@[simp] theorem magnitude_nil (base : Nat) : magnitude base [] = 0 := rfl

theorem magnitude_nil_lt (base : Nat) : magnitude base [] < wordCount := by
  rw [magnitude_nil]
  decide

theorem magnitude_concat (base : Nat) (ds : List Nat) (d : Nat) :
    magnitude base (ds ++ [d]) = magnitude base ds * base + d := by
  rw [magnitude, List.reverse_append, List.reverse_singleton, List.singleton_append,
    Nat.ofDigits_cons, magnitude, Nat.mul_comm, Nat.add_comm]

/-- More digits never make a number smaller. -/
theorem magnitude_le_append {base : Nat} (h : 0 < base) (ds es : List Nat) :
    magnitude base ds ≤ magnitude base (ds ++ es) := by
  rw [magnitude, magnitude, List.reverse_append, Nat.ofDigits_append]
  have hpow : 1 ≤ base ^ es.reverse.length := Nat.pow_pos h
  have hmul := Nat.mul_le_mul_right (Nat.ofDigits base ds.reverse) hpow
  omega

/-! ### Reading digits -/

section Digits

variable {base : Nat}

/-- Reading goes on behind the digits `ds`, whose magnitude fits 64 bits. -/
theorem readDigits_eq_ok {ds : List Nat} (hds : magnitude base ds < wordCount) {t : Text}
    {n : Nat} :
    readDigits base (magnitude base ds) t = .ok n ↔
      ∃ es, Spells base t es ∧ n = magnitude base (ds ++ es) ∧ n < wordCount := by
  induction t generalizing ds with
  | nil =>
    simp only [readDigits, Except.ok.injEq, Spells, List.forall₂_nil_left_iff, exists_eq_left,
      List.append_nil]
    constructor
    · rintro rfl
      exact ⟨rfl, hds⟩
    · rintro ⟨rfl, -⟩
      rfl
  | cons b t ih =>
    simp only [Spells, List.forall₂_cons_left_iff]
    rw [readDigits]
    cases hb : digitIn? base b with
    | none =>
      simp only [reduceCtorEq, false_iff]
      rintro ⟨_, ⟨d, es, hd, -⟩, -⟩
      exact digitIn?_eq_none.1 hb d hd
    | some d =>
      have hd := digitIn?_eq_some.1 hb
      simp only [← magnitude_concat]
      split
      · rename_i hlt
        rw [ih hlt]
        constructor
        · rintro ⟨es, hes, hn⟩
          exact ⟨d :: es, ⟨d, es, hd, hes, rfl⟩, by simpa using hn⟩
        · rintro ⟨_, ⟨d', es, hd', hes, rfl⟩, hn⟩
          obtain rfl := hd'.unique hd
          exact ⟨es, hes, by simpa using hn⟩
      · rename_i hge
        simp only [reduceCtorEq, false_iff]
        rintro ⟨_, ⟨d', es, hd', -, rfl⟩, rfl, hlt⟩
        obtain rfl := hd'.unique hd
        have hle := magnitude_le_append (Nat.zero_lt_of_lt hd.1) (ds ++ [d']) es
        rw [List.append_assoc, List.singleton_append] at hle
        omega

/-- An overflow needs at least one more digit. -/
theorem ne_nil_of_overflow {ds es : List Nat} (hds : magnitude base ds < wordCount)
    (h : wordCount ≤ magnitude base (ds ++ es)) : es ≠ [] := by
  rintro rfl
  rw [List.append_nil] at h
  omega

/-- Reading stops with an overflow where the digits read so far leave 64 bits. -/
theorem readDigits_eq_overflow {ds : List Nat} (hds : magnitude base ds < wordCount) {t : Text} :
    readDigits base (magnitude base ds) t = .error .overflow ↔
      ∃ u es, u <+: t ∧ Spells base u es ∧ wordCount ≤ magnitude base (ds ++ es) := by
  induction t generalizing ds with
  | nil =>
    simp only [readDigits, reduceCtorEq, false_iff, List.prefix_nil]
    rintro ⟨_, es, rfl, hes, hle⟩
    exact ne_nil_of_overflow hds hle (List.forall₂_nil_left_iff.1 hes)
  | cons b t ih =>
    rw [readDigits]
    cases hb : digitIn? base b with
    | none =>
      simp only [Except.error.injEq, reduceCtorEq, false_iff]
      rintro ⟨_, _, hu, hes, hle⟩
      cases hes with
      | nil => exact ne_nil_of_overflow hds hle rfl
      | cons hd hes =>
        obtain ⟨rfl, -⟩ := List.cons_prefix_cons.1 hu
        exact digitIn?_eq_none.1 hb _ hd
    | some d =>
      have hd := digitIn?_eq_some.1 hb
      simp only [← magnitude_concat]
      split
      · rename_i hlt
        rw [ih hlt]
        constructor
        · rintro ⟨u, es, hu, hes, hle⟩
          refine ⟨b :: u, d :: es, List.cons_prefix_cons.2 ⟨rfl, hu⟩, .cons hd hes, ?_⟩
          simpa using hle
        · rintro ⟨_, _, hu, hes, hle⟩
          cases hes with
          | nil => exact absurd rfl (ne_nil_of_overflow hds hle)
          | cons hd' hes =>
            obtain ⟨rfl, htail⟩ := List.cons_prefix_cons.1 hu
            obtain rfl := hd'.unique hd
            exact ⟨_, _, htail, hes, by simpa using hle⟩
      · rename_i hge
        simp only [true_iff]
        refine ⟨[b], [d], ?_, .cons hd .nil, by omega⟩
        exact List.cons_prefix_cons.2 ⟨rfl, List.nil_prefix⟩

theorem readNat_eq_ok {t : Text} {n : Nat} :
    readNat base t = .ok n ↔
      t ≠ [] ∧ ∃ ds, Spells base t ds ∧ n = magnitude base ds ∧ n < wordCount := by
  cases t with
  | nil => simp [readNat]
  | cons b t =>
    have h : readDigits base (magnitude base []) (b :: t) = .ok n ↔ _ :=
      readDigits_eq_ok (magnitude_nil_lt base)
    simpa [readNat] using h

theorem readNat_eq_overflow {t : Text} :
    readNat base t = .error .overflow ↔
      ∃ u ds, u <+: t ∧ Spells base u ds ∧ wordCount ≤ magnitude base ds := by
  cases t with
  | nil =>
    simp only [readNat, Except.error.injEq, reduceCtorEq, false_iff, List.prefix_nil]
    rintro ⟨_, ds, rfl, hds, hle⟩
    obtain rfl := List.forall₂_nil_left_iff.1 hds
    exact absurd hle (Nat.not_le.2 (magnitude_nil_lt base))
  | cons b t =>
    have h : readDigits base (magnitude base []) (b :: t) = .error .overflow ↔ _ :=
      readDigits_eq_overflow (magnitude_nil_lt base)
    simpa [readNat] using h

/-! ### Reading signed numbers -/

/-- The factor of a sign: `true` is minus. -/
def factor (negative : Bool) : Int := if negative then -1 else 1

theorem splitSign_mem (t : Text) :
    ∃ s ∈ signs, t = s.1 ++ (splitSign t).2 ∧ factor (splitSign t).1 = s.2 := by
  unfold splitSign
  split
  · exact ⟨("-", -1), by decide, rfl, rfl⟩
  · exact ⟨("+", 1), by decide, rfl, rfl⟩
  · exact ⟨([], 1), by decide, rfl, rfl⟩

/-- Digits behind a sign are found behind it, since no sign is a digit. -/
theorem splitSign_append {s : Text × Int} (hs : s ∈ signs) {b : UInt8} {d : Nat}
    (hd : IsDigit base b d) (t : Text) :
    (splitSign (s.1 ++ b :: t)).2 = b :: t ∧ factor (splitSign (s.1 ++ b :: t)).1 = s.2 := by
  simp only [signs, List.mem_cons, List.not_mem_nil, or_false] at hs
  rcases hs with rfl | rfl | rfl
  · have hminus : b ≠ 45 := by
      rintro rfl
      exact digitIn?_eq_none.1 rfl d hd
    have hplus : b ≠ 43 := by
      rintro rfl
      exact digitIn?_eq_none.1 rfl d hd
    simp [splitSign, hminus, hplus, factor]
  · exact ⟨rfl, rfl⟩
  · exact ⟨rfl, rfl⟩

/-- What a text denotes, by the digits behind its sign. -/
theorem reads_iff {t : Text} {v : Int} :
    Reads base t v ↔ (splitSign t).2 ≠ [] ∧
      ∃ ds, Spells base (splitSign t).2 ds ∧ v = factor (splitSign t).1 * magnitude base ds := by
  constructor
  · rintro ⟨s, hs, u, ds, rfl, hne, hu, rfl⟩
    cases hu with
    | nil => exact absurd rfl hne
    | cons hd hu =>
      obtain ⟨htext, hfactor⟩ := splitSign_append hs hd _
      rw [htext, hfactor]
      exact ⟨hne, _, .cons hd hu, rfl⟩
  · rintro ⟨hne, ds, hds, rfl⟩
    obtain ⟨s, hs, ht, hfactor⟩ := splitSign_mem t
    exact ⟨s, hs, _, ds, ht, hne, hds, by rw [hfactor]⟩

/-- The first digits of a text leave 64 bits if those behind its sign do. -/
theorem exceeds_iff {t : Text} :
    (∃ s ∈ signs, ∃ u ds, s.1 ++ u <+: t ∧ Spells base u ds ∧ 2 ^ 64 - 1 < magnitude base ds) ↔
      readNat base (splitSign t).2 = .error .overflow := by
  rw [readNat_eq_overflow]
  constructor
  · rintro ⟨s, hs, u, ds, ⟨w, rfl⟩, hu, hlt⟩
    cases hu with
    | nil => exact absurd hlt (Nat.not_lt.2 (Nat.zero_le _))
    | cons hd hu =>
      rw [List.append_assoc, List.cons_append, (splitSign_append hs hd _).1]
      exact ⟨_, _, List.prefix_append _ w, .cons hd hu, hlt⟩
  · rintro ⟨u, ds, hu, hds, hlt⟩
    obtain ⟨s, hs, ht, -⟩ := splitSign_mem t
    refine ⟨s, hs, u, ds, ?_, hds, hlt⟩
    rw [ht]
    exact (List.prefix_append_right_inj s.1).2 hu

instance (v : Int) : Decidable (Fits v) := inferInstanceAs (Decidable (_ ∧ _))

theorem readInt_of_error {t : Text} {e : Fault} (h : readNat base (splitSign t).2 = .error e) :
    readInt base t = .error e := by
  simp only [readInt, h]

theorem readInt_of_ok {t : Text} {n : Nat} (h : readNat base (splitSign t).2 = .ok n) :
    readInt base t = if Fits (factor (splitSign t).1 * n) then .ok (factor (splitSign t).1 * n)
      else .error .overflow := by
  simp only [readInt, h]
  cases (splitSign t).1 with
  | false =>
    have hfits : Fits n ↔ n < signLimit := by
      simp only [Fits, signLimit]
      omega
    simp only [factor, Bool.false_eq_true, ↓reduceIte, Int.one_mul, hfits]
  | true =>
    have hfits : Fits (-n) ↔ n ≤ signLimit := by
      simp only [Fits, signLimit]
      omega
    simp only [factor, ↓reduceIte, Int.neg_mul, Int.one_mul, hfits]

/-- The magnitude of a signed number of 64 bits fits an unsigned one. -/
theorem lt_wordCount_of_fits {negative : Bool} {n : Nat} (h : Fits (factor negative * n)) :
    n < wordCount := by
  cases negative with
  | false =>
    simp only [Fits, factor, Bool.false_eq_true, ↓reduceIte] at h
    simp only [wordCount]
    omega
  | true =>
    simp only [Fits, factor, ↓reduceIte] at h
    simp only [wordCount]
    omega

/-- **Numbers that fit are read**, and nothing else is. -/
theorem readInt_eq_ok {t : Text} {v : Int} :
    readInt base t = .ok v ↔ Reads base t v ∧ Fits v := by
  rw [reads_iff]
  constructor
  · intro h
    cases hn : readNat base (splitSign t).2 with
    | error e =>
      rw [readInt_of_error hn] at h
      cases h
    | ok n =>
      obtain ⟨hne, ds, hds, rfl, -⟩ := readNat_eq_ok.1 hn
      rw [readInt_of_ok hn] at h
      split at h
      · rename_i hfits
        obtain rfl := Except.ok.inj h
        exact ⟨⟨hne, ds, hds, rfl⟩, hfits⟩
      · cases h
  · rintro ⟨⟨hne, ds, hds, rfl⟩, hfits⟩
    rw [readInt_of_ok (readNat_eq_ok.2 ⟨hne, ds, hds, rfl, lt_wordCount_of_fits hfits⟩),
      if_pos hfits]

/-- **Numbers that leave 64 bits** are told from texts that are none. -/
theorem readInt_eq_overflow {t : Text} :
    readInt base t = .error .overflow ↔ Overflows base t := by
  rw [Overflows, exceeds_iff]
  simp only [reads_iff]
  constructor
  · intro h
    cases hn : readNat base (splitSign t).2 with
    | error e =>
      rw [readInt_of_error hn] at h
      obtain rfl := Except.error.inj h
      exact .inl rfl
    | ok n =>
      obtain ⟨hne, ds, hds, rfl, -⟩ := readNat_eq_ok.1 hn
      rw [readInt_of_ok hn] at h
      split at h
      · cases h
      · rename_i hfits
        exact .inr ⟨_, ⟨hne, ds, hds, rfl⟩, hfits⟩
  · rintro (h | ⟨_, ⟨hne, ds, hds, rfl⟩, hfits⟩)
    · exact readInt_of_error h
    · -- all digits are legal, and their magnitude leaves 64 bits or the signed number does
      by_cases hlt : magnitude base ds < wordCount
      · rw [readInt_of_ok (readNat_eq_ok.2 ⟨hne, ds, hds, rfl, hlt⟩), if_neg hfits]
      · refine readInt_of_error (readNat_eq_overflow.2 ⟨_, ds, List.prefix_rfl, hds, ?_⟩)
        omega

end Digits

end Numeral

namespace Literal

open Numeral

/-! ### The grammar -/

/-- The text is a zero and then digits only, at least one. -/
def HasLeadingZero (u : Text) : Prop :=
  ∃ ds : Text, u = 48 :: ds ∧ ds ≠ [] ∧ ∀ b ∈ ds, Text.isDigit b = true

/-- The marks of hexadecimal literals. -/
def hexMarks : List Text := ["0x", "0X"]

/-- The marks of binary literals. -/
def binaryMarks : List Text := ["0b", "0B"]

/-- The marks of octal literals. -/
def octalMarks : List Text := ["0o", "0O"]

/-- The forms of numbers: the literal `u` writes a number in a base as `t`. -/
inductive Form : Nat → Text → Text → Prop
  | hex {m t : Text} (h : m ∈ hexMarks) : Form 16 (m ++ t) t
  | binary {m t : Text} (h : m ∈ binaryMarks) : Form 2 (m ++ t) t
  | decimal {u : Text} (h : ¬ HasLeadingZero u) : Form 10 u u

/-- **The literals with their values**: a rune between quotes denotes its code point, and a number
in one of the three forms denotes itself, if it fits 64 bits. -/
inductive Denotes : Text → Int → Prop
  | char {u : Text} {r : Rune} (h : u.runes = [.scalar '\'', r, .scalar '\'']) : Denotes u r.code
  | number {base : Nat} {u t : Text} {v : Int} (hf : Form base u t) (h : Reads base t v)
      (hv : Fits v) : Denotes u v

/-- **The texts that are understood but not supported**: octal numbers, with a mark or without, and
numbers that leave 64 bits. -/
inductive Unsupported : Text → Prop
  | mark {m t : Text} (h : m ∈ octalMarks) : Unsupported (m ++ t)
  | zero {u : Text} (h : HasLeadingZero u) : Unsupported u
  | overflow {base : Nat} {u t : Text} (hf : Form base u t) (h : Overflows base t) : Unsupported u

/-! ### Kinds -/

/-- The marks of a letter are a zero with the letter in lower or in upper case. -/
theorem hasMark_iff {letter : UInt8} {marks : List Text}
    (h : marks = [[48, letter], [48, letter - 32]]) {u : Text} :
    hasMark letter u = true ↔ ∃ m ∈ marks, ∃ t, u = m ++ t := by
  subst h
  simp only [List.mem_cons, List.not_mem_nil, or_false, exists_eq_or_imp, exists_eq_left,
    List.cons_append, List.nil_append]
  unfold hasMark
  split
  · rename_i b t
    simp only [Bool.or_eq_true, beq_iff_eq, List.cons.injEq, true_and, exists_eq_right']
    have hupper : b + 32 = letter ↔ b = letter - 32 := by
      constructor
      · rintro rfl
        exact (UInt8.add_sub_cancel b 32).symm
      · rintro rfl
        exact UInt8.sub_add_cancel letter 32
    simp [hupper]
  · rename_i hu
    simp only [Bool.false_eq_true, false_iff]
    rintro (⟨t, rfl⟩ | ⟨t, rfl⟩) <;> exact hu _ _ rfl

/-- The number in a text of a given kind: its base and what stands behind the mark. -/
def digitsOf (u : Text) : Kind → Option (Nat × Text)
  | .hex => some (16, u.drop 2)
  | .binary => some (2, u.drop 2)
  | .decimal => some (10, u)
  | _ => none

theorem kindOf_quote (t : Text) : kindOf (39 :: t) = .char := rfl

theorem kindOf_hex {m : Text} (h : m ∈ hexMarks) (t : Text) : kindOf (m ++ t) = .hex := by
  simp only [hexMarks, List.mem_cons, List.not_mem_nil, or_false] at h
  rcases h with rfl | rfl <;> rfl

theorem kindOf_binary {m : Text} (h : m ∈ binaryMarks) (t : Text) :
    kindOf (m ++ t) = .binary := by
  simp only [binaryMarks, List.mem_cons, List.not_mem_nil, or_false] at h
  rcases h with rfl | rfl <;> rfl

theorem kindOf_octal {m : Text} (h : m ∈ octalMarks) (t : Text) : kindOf (m ++ t) = .octal := by
  simp only [octalMarks, List.mem_cons, List.not_mem_nil, or_false] at h
  rcases h with rfl | rfl <;> rfl

theorem kindOf_zero {u : Text} (h : HasLeadingZero u) : kindOf u = .octal := by
  obtain ⟨ds, rfl, hne, hds⟩ := h
  cases ds with
  | nil => exact absurd rfl hne
  | cons d ds =>
    have hd := hds d (by simp)
    -- no letter of a mark is a digit
    have hmark : ∀ letter : UInt8, 97 ≤ letter → hasMark letter (48 :: d :: ds) = false := by
      intro letter hl
      simp only [Text.isDigit, Bool.and_eq_true, decide_eq_true_eq, UInt8.le_iff_toNat_le,
        UInt8.reduceToNat] at hd hl
      simp only [hasMark, Bool.or_eq_false_iff, beq_eq_false_iff_ne, ne_eq, ← UInt8.toNat_inj,
        UInt8.toNat_add, UInt8.reduceToNat]
      omega
    have hall : (d :: ds).all Text.isDigit = true := List.all_eq_true.2 hds
    simp [kindOf, hmark 120 (by decide), hmark 98 (by decide), hmark 111 (by decide), hall]

/-- What the kind of a text says of its first bytes. -/
theorem kindOf_cases (u : Text) :
    (kindOf u = .char ∧ ∃ t, u = 39 :: t) ∨
    (kindOf u = .hex ∧ ∃ m ∈ hexMarks, ∃ t, u = m ++ t) ∨
    (kindOf u = .binary ∧ ∃ m ∈ binaryMarks, ∃ t, u = m ++ t) ∨
    (kindOf u = .octal ∧ ((∃ m ∈ octalMarks, ∃ t, u = m ++ t) ∨ HasLeadingZero u)) ∨
    kindOf u = .decimal ∧ ¬ HasLeadingZero u := by
  by_cases hquote : u.head? = some 39
  · obtain ⟨t, rfl⟩ := List.head?_eq_some_iff.1 hquote
    exact .inl ⟨rfl, t, rfl⟩
  by_cases hhex : hasMark 120 u = true
  · obtain ⟨m, hm, t, rfl⟩ := (hasMark_iff (show hexMarks = _ from rfl)).1 hhex
    exact .inr (.inl ⟨kindOf_hex hm t, m, hm, t, rfl⟩)
  by_cases hbinary : hasMark 98 u = true
  · obtain ⟨m, hm, t, rfl⟩ := (hasMark_iff (show binaryMarks = _ from rfl)).1 hbinary
    exact .inr (.inr (.inl ⟨kindOf_binary hm t, m, hm, t, rfl⟩))
  by_cases hoctal : hasMark 111 u = true
  · obtain ⟨m, hm, t, rfl⟩ := (hasMark_iff (show octalMarks = _ from rfl)).1 hoctal
    exact .inr (.inr (.inr (.inl ⟨kindOf_octal hm t, .inl ⟨m, hm, t, rfl⟩⟩)))
  by_cases hzero : HasLeadingZero u
  · exact .inr (.inr (.inr (.inl ⟨kindOf_zero hzero, .inr hzero⟩)))
  refine .inr (.inr (.inr (.inr ⟨?_, hzero⟩)))
  unfold kindOf
  rw [if_neg hquote, if_neg hhex, if_neg hbinary, if_neg hoctal]
  split
  · rename_i d ds
    refine if_neg ?_
    intro hall
    exact hzero ⟨d :: ds, rfl, by simp, List.all_eq_true.1 hall⟩
  · rfl

/-- A mark has two bytes, and its letter is no decimal digit. -/
theorem mark_spec {m : Text} (h : m ∈ hexMarks ++ binaryMarks ++ octalMarks) :
    m.length = 2 ∧ ∀ t, readInt 10 (m ++ t) = .error .malformed := by
  simp only [hexMarks, binaryMarks, octalMarks, List.cons_append, List.nil_append, List.mem_cons,
    List.not_mem_nil, or_false] at h
  rcases h with rfl | rfl | rfl | rfl | rfl | rfl <;> exact ⟨rfl, fun _ => rfl⟩

theorem kindOf_eq_decimal {u : Text} (hz : ¬ HasLeadingZero u)
    (hr : readInt 10 u ≠ .error .malformed) : kindOf u = .decimal := by
  rcases kindOf_cases u with ⟨-, t, rfl⟩ | ⟨-, m, hm, t, rfl⟩ | ⟨-, m, hm, t, rfl⟩ |
    ⟨-, ⟨m, hm, t, rfl⟩ | hz'⟩ | ⟨hk, -⟩
  · exact absurd rfl hr
  · exact absurd ((mark_spec (by simp [hm])).2 t) hr
  · exact absurd ((mark_spec (by simp [hm])).2 t) hr
  · exact absurd ((mark_spec (by simp [hm])).2 t) hr
  · exact absurd hz' hz
  · exact hk

/-- The number in a literal is the one that its kind announces, unless reading finds none there. -/
theorem form_iff {base : Nat} {u t : Text} (hr : readInt base t ≠ .error .malformed) :
    Form base u t ↔ digitsOf u (kindOf u) = some (base, t) := by
  constructor
  · intro h
    cases h with
    | hex h => rw [kindOf_hex h, digitsOf, List.drop_left' (mark_spec (by simp [h])).1]
    | binary h => rw [kindOf_binary h, digitsOf, List.drop_left' (mark_spec (by simp [h])).1]
    | decimal h => rw [kindOf_eq_decimal h hr, digitsOf]
  · intro h
    rcases kindOf_cases u with ⟨hk, -⟩ | ⟨hk, m, hm, s, rfl⟩ | ⟨hk, m, hm, s, rfl⟩ | ⟨hk, -⟩ |
      ⟨hk, hz⟩
    · rw [hk] at h
      cases h
    · rw [hk, digitsOf, List.drop_left' (mark_spec (by simp [hm])).1] at h
      cases h
      exact .hex hm
    · rw [hk, digitsOf, List.drop_left' (mark_spec (by simp [hm])).1] at h
      cases h
      exact .binary hm
    · rw [hk] at h
      cases h
    · rw [hk] at h
      cases h
      exact .decimal hz

/-! ### Values -/

theorem number_eq_ok {k : Kind} {base : Nat} {u t : Text} {v : Int} :
    number k base u t = .ok v ↔ readInt base t = .ok v := by
  cases t with
  | nil => simp [number, readInt, splitSign, readNat]
  | cons b t =>
    rw [number, if_neg (by simp)]
    cases readInt base (b :: t) with
    | ok w => simp
    | error e => cases e <;> simp

theorem number_unsupported {k : Kind} {base : Nat} {u t : Text} :
    (∃ e, number k base u t = .error e ∧ e.code = .unsupportedConstant) ↔
      readInt base t = .error .overflow := by
  have hne : Code.malformedLiteral ≠ .unsupportedConstant := by decide
  cases t with
  | nil => simp [number, readInt, splitSign, readNat, Error.code, hne]
  | cons b t =>
    rw [number, if_neg (by simp)]
    cases readInt base (b :: t) with
    | ok w => simp
    | error e => cases e <;> simp [Error.code, hne]

theorem charValue_eq_ok {u : Text} {v : Int} :
    charValue u = .ok v ↔ ∃ r : Rune, u.runes = [.scalar '\'', r, .scalar '\''] ∧ v = r.code := by
  unfold charValue
  split
  · rename_i r h
    simp [h, eq_comm]
  · rename_i h
    simp only [reduceCtorEq, false_iff]
    rintro ⟨r, hr, -⟩
    exact h r hr

theorem charValue_code {u : Text} {e : Error} (h : charValue u = .error e) :
    e.code = .malformedLiteral := by
  unfold charValue at h
  split at h
  · cases h
  · cases h
    rfl

/-- A text that starts with the rune of a quote starts with a quote. -/
theorem kindOf_of_runes {u : Text} {rs : List Rune} (h : u.runes = .scalar '\'' :: rs) :
    kindOf u = .char := by
  have hu := Text.ofRunes_runes u
  rw [h, Text.ofRunes, List.flatMap_cons] at hu
  rw [← hu]
  exact kindOf_quote _

theorem denotes_iff {u : Text} {v : Int} :
    Denotes u v ↔ (kindOf u = .char ∧ charValue u = .ok v) ∨
      ∃ base t, digitsOf u (kindOf u) = some (base, t) ∧ readInt base t = .ok v := by
  constructor
  · intro h
    cases h with
    | char h => exact .inl ⟨kindOf_of_runes h, charValue_eq_ok.2 ⟨_, h, rfl⟩⟩
    | @number base _ t _ hf h hv =>
      have hr := readInt_eq_ok.2 ⟨h, hv⟩
      exact .inr ⟨base, t, (form_iff (by simp [hr])).1 hf, hr⟩
  · rintro (⟨-, h⟩ | ⟨base, t, hd, hr⟩)
    · obtain ⟨r, hr, rfl⟩ := charValue_eq_ok.1 h
      exact .char hr
    · obtain ⟨hreads, hfits⟩ := readInt_eq_ok.1 hr
      exact .number ((form_iff (by simp [hr])).2 hd) hreads hfits

theorem unsupported_iff {u : Text} :
    Unsupported u ↔ kindOf u = .octal ∨
      ∃ base t, digitsOf u (kindOf u) = some (base, t) ∧ readInt base t = .error .overflow := by
  constructor
  · intro h
    cases h with
    | mark h => exact .inl (kindOf_octal h _)
    | zero h => exact .inl (kindOf_zero h)
    | @overflow base _ t hf h =>
      have hr := readInt_eq_overflow.2 h
      exact .inr ⟨base, t, (form_iff (by simp [hr])).1 hf, hr⟩
  · rintro (hk | ⟨base, t, hd, hr⟩)
    · rcases kindOf_cases u with ⟨h, -⟩ | ⟨h, -⟩ | ⟨h, -⟩ | ⟨-, ⟨m, hm, t, rfl⟩ | hz⟩ | ⟨h, -⟩
      · cases hk.symm.trans h
      · cases hk.symm.trans h
      · cases hk.symm.trans h
      · exact .mark hm
      · exact .zero hz
      · cases hk.symm.trans h
    · exact .overflow ((form_iff (by simp [hr])).2 hd) (readInt_eq_overflow.1 hr)

/-- The value of a literal with the kind of its text: that of a character, none for an octal number,
and else the number that its kind announces. -/
theorem value_cases (u : Text) :
    (kindOf u = .char ∧ value ⟨kindOf u, u⟩ = charValue u) ∨
    (kindOf u = .octal ∧ value ⟨kindOf u, u⟩ = .error (.octal u)) ∨
    ∃ base t, digitsOf u (kindOf u) = some (base, t) ∧
      value ⟨kindOf u, u⟩ = number (kindOf u) base u t := by
  rcases kindOf_cases u with ⟨hk, -⟩ | ⟨hk, hmark⟩ | ⟨hk, m, hm, t, rfl⟩ | ⟨hk, -⟩ | ⟨hk, -⟩
  · exact .inl ⟨hk, by rw [hk, value]⟩
  · have h : hasMark 120 u = true := (hasMark_iff rfl).2 hmark
    exact .inr (.inr ⟨16, u.drop 2, by rw [hk, digitsOf], by rw [hk]; simp [value, h]⟩)
  · have h : ¬ (m ++ t).length < 2 := by
      rw [List.length_append, (mark_spec (by simp [hm])).1]
      omega
    exact .inr (.inr ⟨2, (m ++ t).drop 2, by rw [hk, digitsOf], by rw [hk, value, if_neg h]⟩)
  · exact .inr (.inl ⟨hk, by rw [hk, value]⟩)
  · exact .inr (.inr ⟨10, u, by rw [hk, digitsOf], by rw [hk, value]⟩)

theorem value_eq_ok {u : Text} {v : Int} : value ⟨kindOf u, u⟩ = .ok v ↔ Denotes u v := by
  rw [denotes_iff]
  rcases value_cases u with ⟨hk, hv⟩ | ⟨hk, hv⟩ | ⟨base, t, hd, hv⟩
  · rw [hv]
    simp [hk, digitsOf]
  · rw [hv]
    simp [hk, digitsOf]
  · rw [hv, number_eq_ok]
    constructor
    · intro h
      exact .inr ⟨base, t, hd, h⟩
    · rintro (⟨hk, -⟩ | ⟨base', t', hd', h⟩)
      · rw [hk] at hd
        cases hd
      · cases hd.symm.trans hd'
        exact h

theorem value_unsupported {u : Text} :
    (∃ e, value ⟨kindOf u, u⟩ = .error e ∧ e.code = .unsupportedConstant) ↔ Unsupported u := by
  rw [unsupported_iff]
  rcases value_cases u with ⟨hk, hv⟩ | ⟨hk, hv⟩ | ⟨base, t, hd, hv⟩
  · rw [hv, hk]
    simp only [reduceCtorEq, digitsOf, false_and, exists_false, or_false, iff_false]
    rintro ⟨e, he, hcode⟩
    rw [charValue_code he] at hcode
    exact absurd hcode (by decide)
  · rw [hv]
    exact iff_of_true ⟨_, rfl, rfl⟩ (.inl hk)
  · rw [hv, number_unsupported]
    constructor
    · intro h
      exact .inr ⟨base, t, hd, h⟩
    · rintro (hk | ⟨base', t', hd', h⟩)
      · rw [hk] at hd
        cases hd
      · cases hd.symm.trans hd'
        exact h

/-- An error of a literal has one of two codes. -/
theorem Error.code_cases (e : Error) :
    e.code = .unsupportedConstant ∨ e.code = .malformedLiteral := by
  cases e with
  | overflow t | octal t | notWord v => exact .inl rfl
  | _ => exact .inr rfl

/-- **The values of tokens.**  Blanks at the ends do not count; the rest has exactly the value that
the grammar gives to it.  A token without a value is unsupported if it is an octal number or leaves
64 bits, and malformed in every other case. -/
theorem ofToken_value_iff (t : Text) :
    (∀ v, (ofToken t).value = .ok v ↔ Denotes t.trim v) ∧
    ((∃ e, (ofToken t).value = .error e ∧ e.code = .unsupportedConstant) ↔
      Unsupported t.trim) ∧
    ((∃ e, (ofToken t).value = .error e ∧ e.code = .malformedLiteral) ↔
      (∀ v, ¬ Denotes t.trim v) ∧ ¬ Unsupported t.trim) := by
  have hok : ∀ v, (ofToken t).value = .ok v ↔ Denotes t.trim v := by
    intro v
    exact value_eq_ok
  have hunsupported : (∃ e, (ofToken t).value = .error e ∧ e.code = .unsupportedConstant) ↔
      Unsupported t.trim := value_unsupported
  refine ⟨hok, hunsupported, ?_⟩
  rw [← hunsupported]
  constructor
  · rintro ⟨e, he, hcode⟩
    constructor
    · intro v hv
      rw [← hok, he] at hv
      cases hv
    · rintro ⟨e', he', hcode'⟩
      cases he.symm.trans he'
      rw [hcode] at hcode'
      exact absurd hcode' (by decide)
  · rintro ⟨hnone, hother⟩
    cases hv : (ofToken t).value with
    | ok v => exact absurd ((hok v).1 hv) (hnone v)
    | error e =>
      rcases e.code_cases with hcode | hcode
      · exact absurd ⟨e, hv, hcode⟩ hother
      · exact ⟨e, rfl, hcode⟩

-- a sign behind a mark, at the end of the range; an overflow in front of a bad byte, and behind it
example : (ofToken " 0x-8000000000000000\n").value = .ok (-2 ^ 63) := by decide
example : (ofToken "18446744073709551616z").value = .error (.overflow "18446744073709551616z") := by
  decide
example : (ofToken "0bz1").value = .error (.notNumber .binary "0bz1") := by decide

end Literal

end StumpGen
