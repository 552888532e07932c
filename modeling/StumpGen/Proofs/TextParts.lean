import StumpGen.Text
import Mathlib.Data.List.Basic

/-!
# Texts whose parts can be told

Names and messages are put together from numbers and texts with separators between them.  Which
parts can be read off such a text depends on what the parts may hold.

* `Text.ofNat_injective`, `Text.ofInt_injective` : numerals are told apart by their texts.
* `Text.append_cons_inj` : a part ends at the first separator, if it does not hold the separator.
* `Text.append_separator_eq_iff` : otherwise the text can be cut at another one of its separators.
-/

namespace StumpGen.Text

/-! ### Numerals -/

/-- The byte of an ASCII character. -/
def asciiByte (c : Char) : UInt8 := c.toNat.toUInt8

theorem ofChar_of_isDigit {c : Char} (h : c.isDigit = true) : ofChar c = [asciiByte c] := by
  have hc : c.toNat ≤ 57 := by
    simp only [Char.isDigit, Bool.and_eq_true, decide_eq_true_eq] at h
    exact h.2
  have hle : c.val.toNat ≤ 127 := Nat.le_trans hc (by decide)
  simp only [ofChar, String.utf8EncodeChar, asciiByte, hle, ↓reduceIte]
  rfl

theorem ofNat_eq_map (n : Nat) : ofNat n = (Nat.toDigits 10 n).map asciiByte := by
  rw [ofNat, List.map_eq_flatMap]
  apply List.flatMap_congr
  intro c hc
  exact ofChar_of_isDigit (Nat.isDigit_of_mem_toDigits (by omega) (by omega) hc)

theorem toNat_asciiByte {c : Char} (h : c.isDigit = true) : (asciiByte c).toNat = c.toNat := by
  simp only [Char.isDigit, Bool.and_eq_true, decide_eq_true_eq] at h
  have hle : c.toNat ≤ 57 := h.2
  simp only [asciiByte, Nat.toUInt8_eq, UInt8.toNat_ofNat']
  omega

theorem isDigit_asciiByte {c : Char} (h : c.isDigit = true) : isDigit (asciiByte c) = true := by
  have hb := toNat_asciiByte h
  simp only [Char.isDigit, Bool.and_eq_true, decide_eq_true_eq] at h
  simp only [isDigit, Bool.and_eq_true, decide_eq_true_eq, UInt8.le_iff_toNat_le, hb]
  exact h

theorem isDigit_of_mem_ofNat {n : Nat} {b : UInt8} (h : b ∈ ofNat n) : isDigit b = true := by
  rw [ofNat_eq_map, List.mem_map] at h
  obtain ⟨c, hc, rfl⟩ := h
  exact isDigit_asciiByte (Nat.isDigit_of_mem_toDigits (by omega) (by omega) hc)

theorem ofInt_bytes {v : Int} {b : UInt8} (h : b ∈ ofInt v) : b = 45 ∨ isDigit b = true := by
  cases v with
  | ofNat n => exact .inr (isDigit_of_mem_ofNat h)
  | negSucc n =>
    rcases List.mem_append.1 h with h | h
    · exact .inl (by simpa using (show b ∈ [45] from h))
    · exact .inr (isDigit_of_mem_ofNat h)

theorem notMem_ofInt {b : UInt8} (h : isDigit b = false) (hm : b ≠ 45) (v : Int) :
    b ∉ ofInt v := by
  intro hb
  rcases ofInt_bytes hb with hb | hb
  · exact hm hb
  · simp [hb] at h

theorem newline_notMem_ofInt (v : Int) : (10 : UInt8) ∉ ofInt v :=
  notMem_ofInt (by decide) (by decide) v

theorem ofNat_ne_nil (n : Nat) : ofNat n ≠ [] := by
  simp [ofNat_eq_map]

/-- A digit is the character whose code its byte is. -/
theorem map_ofNat (n : Nat) : (ofNat n).map (fun b => Char.ofNat b.toNat) = Nat.toDigits 10 n := by
  rw [ofNat_eq_map, List.map_map]
  conv_rhs => rw [← List.map_id (Nat.toDigits 10 n)]
  apply List.map_congr_left
  intro c hc
  have hb := toNat_asciiByte (Nat.isDigit_of_mem_toDigits (by omega) (by omega) hc)
  simp [hb]

/-- The number that decimal digits stand for. -/
def decimal (t : Text) : Nat := Nat.ofDigitChars 10 (t.map fun b => Char.ofNat b.toNat) 0

@[simp] theorem decimal_ofNat (n : Nat) : decimal (ofNat n) = n := by
  rw [decimal, map_ofNat, Nat.ofDigitChars_ten_toDigits]

theorem ofNat_injective : Function.Injective ofNat := Function.LeftInverse.injective decimal_ofNat

/-- Zeros in front do not count. -/
@[simp] theorem decimal_padZeros (width : Nat) (t : Text) :
    decimal (padZeros width t) = decimal t := by
  have hzeros (k : Nat) :
      Nat.ofDigitChars 10 (List.replicate k (Char.ofNat (48 : UInt8).toNat)) 0 = 0 := by
    induction k with
    | zero => rfl
    | succ k ih =>
      rw [List.replicate_succ, Nat.ofDigitChars_cons]
      exact ih
  rw [decimal, padZeros, List.map_append, List.map_replicate, Nat.ofDigitChars_append, hzeros,
    decimal]

theorem padZeros_bytes {width : Nat} {t : Text} {b : UInt8} (h : b ∈ padZeros width t) :
    b = 48 ∨ b ∈ t := by
  rcases List.mem_append.1 h with h | h
  · exact .inl (List.eq_of_mem_replicate h)
  · exact .inr h

theorem ofInt_injective : Function.Injective ofInt := by
  have hd (n : Nat) (t : Text) : ofNat n ≠ 45 :: t := by
    intro h
    have := isDigit_of_mem_ofNat (n := n) (b := 45) (by simp [h])
    exact absurd this (by decide)
  rintro (n | n) (m | m) h
  · exact congrArg Int.ofNat (ofNat_injective h)
  · exact absurd h (hd n _)
  · exact absurd h.symm (hd m _)
  · have := ofNat_injective (List.cons.inj h).2
    exact congrArg Int.negSucc (Nat.succ.inj this)

/-! ### Separators -/

/-- What stands in front of the first `x`, and what stands behind it, can be told. -/
theorem append_cons_inj {x : UInt8} {a b c d : Text} (ha : x ∉ a) (hb : x ∉ b)
    (h : a ++ x :: c = b ++ x :: d) : a = b ∧ c = d := by
  induction a generalizing b with
  | nil =>
    cases b with
    | nil => exact ⟨rfl, (List.cons.inj h).2⟩
    | cons y b => exact absurd (List.cons.inj h).1 fun e => hb (by simp [e])
  | cons y a ih =>
    cases b with
    | nil => exact absurd (List.cons.inj h).1 fun e => ha (by simp [e])
    | cons z b =>
      obtain ⟨rfl, h'⟩ := List.cons.inj h
      obtain ⟨rfl, rfl⟩ := ih (fun e => ha (by simp [e])) (fun e => hb (by simp [e])) h'
      exact ⟨rfl, rfl⟩

/-- What stands behind the last `x` can be told. -/
theorem append_cons_inj_right {x : UInt8} {a b c d : Text} (hc : x ∉ c) (hd : x ∉ d)
    (h : a ++ x :: c = b ++ x :: d) : c = d := by
  have h' := congrArg List.reverse h
  simp only [List.reverse_append, List.reverse_cons, List.append_assoc, List.singleton_append] at h'
  have := (append_cons_inj (by simpa using hc) (by simpa using hd) h').1
  exact List.reverse_injective this

/-- Where a separator starts with a byte that it holds once, a text can be cut at it in different
ways only if it holds the separator more than once. -/
theorem separator_cases {x : UInt8} {s a b c : Text} (hx : x ∉ s)
    (h : (x :: s) ++ a = b ++ ((x :: s) ++ c)) :
    b = [] ∧ a = c ∨ ∃ m, b = (x :: s) ++ m ∧ a = m ++ ((x :: s) ++ c) := by
  rcases List.append_eq_append_iff.1 h with ⟨m, hb, ha⟩ | ⟨m, hsep, hm⟩
  · exact .inr ⟨m, hb, ha⟩
  · cases b with
    | nil => exact .inl ⟨rfl, by simpa using h⟩
    | cons y b =>
      cases m with
      | nil => exact .inr ⟨[], by simpa using hsep.symm, by simpa using hm.symm⟩
      | cons z m =>
        -- the second separator would start inside the first one
        obtain rfl : x = z := by simpa using congrArg List.head? hm
        have hrest : s = b ++ x :: m := (List.cons.inj hsep).2
        exact absurd (by simp [hrest]) hx

/-- Two parts with a separator between them are told apart up to a shift: one of the texts is cut at
another separator, so that what stands between the two belongs to the other part. -/
theorem append_separator_eq_iff {x : UInt8} {s a b c d : Text} (hx : x ∉ s) :
    a ++ ((x :: s) ++ b) = c ++ ((x :: s) ++ d) ↔ a = c ∧ b = d ∨
      (∃ m, a = c ++ ((x :: s) ++ m) ∧ d = m ++ ((x :: s) ++ b)) ∨
      ∃ m, c = a ++ ((x :: s) ++ m) ∧ b = m ++ ((x :: s) ++ d) := by
  constructor
  · intro h
    rcases List.append_eq_append_iff.1 h with ⟨p, hc, hrest⟩ | ⟨p, ha, hrest⟩
    · rcases separator_cases hx hrest with ⟨rfl, hb⟩ | ⟨m, rfl, hb⟩
      · exact .inl ⟨by simpa using hc.symm, hb⟩
      · exact .inr (.inr ⟨m, hc, hb⟩)
    · rcases separator_cases hx hrest with ⟨rfl, hd⟩ | ⟨m, rfl, hd⟩
      · exact .inl ⟨by simpa using ha, hd.symm⟩
      · exact .inr (.inl ⟨m, ha, hd⟩)
  · rintro (⟨rfl, rfl⟩ | ⟨m, rfl, rfl⟩ | ⟨m, rfl, rfl⟩)
    · rfl
    · simp
    · simp

end StumpGen.Text
