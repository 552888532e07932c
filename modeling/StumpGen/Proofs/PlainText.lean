import StumpGen.Text.Blank
import Mathlib.Data.List.DropRight

/-!
# Runes, lines and words of texts

Texts are read in three ways: as runes, as lines and as words.  This file says what each way finds
in the texts that a listing is made of.

* `Text.ofRunes_runes` : no byte is lost, and `Text.runes_ofRunes` : a text that is cut off
  between two runes still reads as the runes in front of the cut.
* `Text.runes_ofChar_append` : a character is read back from its bytes.
* `Text.split_lines_append` : lines that hold no line feed are found again.
* `Text.words_append` : a word of visible ASCII characters is found again.
-/

namespace StumpGen.Text

/-! ### Runes -/

theorem toNat_charOfNat {n : Nat} (h : n.isValidChar) : (Char.ofNat n).val.toNat = n := by
  rw [Char.ofNat, dif_pos h]
  rfl

theorem ofChar_ofNat_ascii {b : UInt8} (h : b < 128) : ofChar (Char.ofNat b.toNat) = [b] := by
  have hb : b.toNat < 128 := UInt8.lt_iff_toNat_lt.1 h
  have hv := toNat_charOfNat (n := b.toNat) (.inl (by omega))
  simp only [ofChar, String.utf8EncodeChar, hv]
  rw [if_pos (by omega), UInt8.ofNat_toNat]

theorem toNat_of_isContinuation {b : UInt8} (h : isContinuation b = true) :
    128 ≤ b.toNat ∧ b.toNat ≤ 191 := by
  simpa [isContinuation, UInt8.le_iff_toNat_le] using h

/-- Two bytes are those of the character that they encode. -/
theorem ofChar_of_pair? {a b : UInt8} {c : Char} (h : pair? a b = some c) : ofChar c = [a, b] := by
  unfold pair? at h
  split at h
  · rename_i hc
    simp only [Bool.and_eq_true, decide_eq_true_eq, UInt8.le_iff_toNat_le, UInt8.reduceToNat] at hc
    obtain ⟨⟨ha₁, ha₂⟩, hb⟩ := hc
    have hb := toNat_of_isContinuation hb
    obtain rfl := Option.some.inj h
    generalize hn : (a.toNat - 0xC0) * 64 + (b.toNat - 0x80) = n
    simp only [ofChar, String.utf8EncodeChar, toNat_charOfNat (n := n) (.inl (by omega))]
    rw [if_neg (by omega), if_pos (by omega), show n / 64 % 32 + 192 = a.toNat by omega,
      show n % 64 + 128 = b.toNat by omega, UInt8.ofNat_toNat, UInt8.ofNat_toNat]
  · cases h

/-- Three bytes are those of the character that they encode. -/
theorem ofChar_of_triple? {a b c : UInt8} {d : Char} (h : triple? a b c = some d) :
    ofChar d = [a, b, c] := by
  unfold triple? at h
  split at h
  · rename_i hc
    simp only [Bool.and_eq_true, Bool.or_eq_true, decide_eq_true_eq, bne_iff_ne, ne_eq,
      UInt8.le_iff_toNat_le, ← UInt8.toNat_inj, UInt8.reduceToNat] at hc
    obtain ⟨⟨⟨⟨⟨ha₁, ha₂⟩, hb⟩, hc⟩, hlow⟩, hsur⟩ := hc
    have hb := toNat_of_isContinuation hb
    have hc := toNat_of_isContinuation hc
    obtain rfl := Option.some.inj h
    generalize hn : (a.toNat - 0xE0) * 4096 + (b.toNat - 0x80) * 64 + (c.toNat - 0x80) = n
    have hvalid : n.isValidChar := by
      by_cases hs : n < 0xD800
      · exact .inl hs
      · exact .inr ⟨by omega, by omega⟩
    simp only [ofChar, String.utf8EncodeChar, toNat_charOfNat hvalid]
    rw [if_neg (by omega), if_neg (by omega), if_pos (by omega),
      show n / 4096 % 16 + 224 = a.toNat by omega, show n / 64 % 64 + 128 = b.toNat by omega,
      show n % 64 + 128 = c.toNat by omega, UInt8.ofNat_toNat, UInt8.ofNat_toNat,
      UInt8.ofNat_toNat]
  · cases h

/-- Four bytes are those of the character that they encode. -/
theorem ofChar_of_quad? {a b c d : UInt8} {e : Char} (h : quad? a b c d = some e) :
    ofChar e = [a, b, c, d] := by
  unfold quad? at h
  split at h
  · rename_i hc
    simp only [Bool.and_eq_true, Bool.or_eq_true, decide_eq_true_eq, bne_iff_ne, ne_eq,
      UInt8.le_iff_toNat_le, ← UInt8.toNat_inj, UInt8.reduceToNat] at hc
    obtain ⟨⟨⟨⟨⟨⟨ha₁, ha₂⟩, hb⟩, hc⟩, hd⟩, hlow⟩, hhigh⟩ := hc
    have hb := toNat_of_isContinuation hb
    have hc := toNat_of_isContinuation hc
    have hd := toNat_of_isContinuation hd
    obtain rfl := Option.some.inj h
    generalize hn : (a.toNat - 0xF0) * 262144 + (b.toNat - 0x80) * 4096 + (c.toNat - 0x80) * 64
      + (d.toNat - 0x80) = n
    simp only [ofChar, String.utf8EncodeChar,
      toNat_charOfNat (n := n) (.inr ⟨by omega, by omega⟩)]
    rw [if_neg (by omega), if_neg (by omega), if_neg (by omega),
      show n / 262144 % 8 + 240 = a.toNat by omega, show n / 4096 % 64 + 128 = b.toNat by omega,
      show n / 64 % 64 + 128 = c.toNat by omega, show n % 64 + 128 = d.toNat by omega,
      UInt8.ofNat_toNat, UInt8.ofNat_toNat, UInt8.ofNat_toNat, UInt8.ofNat_toNat]
  · cases h

/-- The bytes of the first rune are the first bytes. -/
theorem bytes_firstRune (a : UInt8) (t : Text) :
    (firstRune a t).1.bytes = a :: t.take (firstRune a t).2 := by
  unfold firstRune
  split
  · rename_i h
    exact ofChar_ofNat_ascii h
  · split
    · rename_i x h
      obtain ⟨b, hb, hx⟩ := Option.bind_eq_some_iff.1 h
      cases t <;> simp_all [Rune.bytes, ofChar_of_pair? hx]
    · rename_i x h
      obtain ⟨b, hb, h⟩ := Option.bind_eq_some_iff.1 h
      obtain ⟨c, hc, hx⟩ := Option.bind_eq_some_iff.1 h
      match t, hb, hc with
      | b' :: c' :: t, hb, hc =>
        obtain rfl := Option.some.inj hb
        obtain rfl := Option.some.inj hc
        exact ofChar_of_triple? hx
    · rename_i x h
      obtain ⟨b, hb, h⟩ := Option.bind_eq_some_iff.1 h
      obtain ⟨c, hc, h⟩ := Option.bind_eq_some_iff.1 h
      obtain ⟨d, hd, hx⟩ := Option.bind_eq_some_iff.1 h
      match t, hb, hc, hd with
      | b' :: c' :: d' :: t, hb, hc, hd =>
        obtain rfl := Option.some.inj hb
        obtain rfl := Option.some.inj hc
        obtain rfl := Option.some.inj hd
        exact ofChar_of_quad? hx
    · rfl

/-- The rune that starts with `a`, from the characters of two, three and four bytes that may. -/
def pick (a : UInt8) : Option Char → Option Char → Option Char → Rune × Nat
  | some x, _, _ => (.scalar x, 1)
  | none, some x, _ => (.scalar x, 2)
  | none, none, some x => (.scalar x, 3)
  | none, none, none => (.stray a, 0)

theorem firstRune_eq_pick {a : UInt8} (h : ¬ a < 0x80) (t : Text) :
    firstRune a t = pick a (t[0]?.bind fun b => pair? a b)
      (t[0]?.bind fun b => t[1]?.bind fun c => triple? a b c)
      (t[0]?.bind fun b => t[1]?.bind fun c => t[2]?.bind fun d => quad? a b c d) := by
  rw [firstRune, if_neg h]
  rfl

/-- Characters that are cut off do not count if one in front of them was picked. -/
theorem pick_of_le {a : UInt8} {x y z x' y' z' : Option Char} {k : Nat}
    (hx : x' = x ∨ x' = none ∧ k < 1) (hy : y' = y ∨ y' = none ∧ k < 2)
    (hz : z' = z ∨ z' = none ∧ k < 3) (h : (pick a x y z).2 ≤ k) :
    pick a x' y' z' = pick a x y z := by
  rcases x with - | x
  · obtain rfl : x' = none := by rcases hx with h | h; exacts [h, h.1]
    rcases y with - | y
    · obtain rfl : y' = none := by rcases hy with h | h; exacts [h, h.1]
      rcases z with - | z
      · obtain rfl : z' = none := by rcases hz with h | h; exacts [h, h.1]
        rfl
      · have hk : 3 ≤ k := h
        obtain rfl : z' = some z := by rcases hz with h | h; exacts [h, by omega]
        rfl
    · have hk : 2 ≤ k := h
      obtain rfl : y' = some y := by rcases hy with h | h; exacts [h, by omega]
      rfl
  · have hk : 1 ≤ k := h
    obtain rfl : x' = some x := by rcases hx with h | h; exacts [h, by omega]
    rfl

/-- The first rune does not depend on what stands behind it. -/
theorem firstRune_append {a : UInt8} {t u : Text} (h : (firstRune a (t ++ u)).2 ≤ t.length) :
    firstRune a t = firstRune a (t ++ u) := by
  by_cases ha : a < 0x80
  · rw [firstRune, firstRune, if_pos ha, if_pos ha]
  · rw [firstRune_eq_pick ha] at h
    rw [firstRune_eq_pick ha, firstRune_eq_pick ha]
    refine pick_of_le ?_ ?_ ?_ h
    · match t with
      | [] => exact .inr ⟨rfl, by simp⟩
      | b :: t => exact .inl rfl
    · match t with
      | [] => exact .inr ⟨rfl, by simp⟩
      | [b] => exact .inr ⟨rfl, by simp⟩
      | b :: c :: t => exact .inl rfl
    · match t with
      | [] => exact .inr ⟨rfl, by simp⟩
      | [b] => exact .inr ⟨rfl, by simp⟩
      | [b, c] => exact .inr ⟨rfl, by simp⟩
      | b :: c :: d :: t => exact .inl rfl

theorem runesAfter_eq_drop (n : Nat) (t : Text) : runesAfter n t = runes (t.drop n) := by
  induction t generalizing n with
  | nil => simp [runes, runesAfter]
  | cons a t ih =>
    cases n with
    | zero => rfl
    | succ n => rw [runesAfter, List.drop_succ_cons, ih]

theorem runes_cons (a : UInt8) (t : Text) :
    runes (a :: t) = (firstRune a t).1 :: runes (t.drop (firstRune a t).2) := by
  rw [← runesAfter_eq_drop]
  rfl

theorem firstRune_le (a : UInt8) (t : Text) : (firstRune a t).2 ≤ t.length := by
  unfold firstRune
  split
  · exact Nat.zero_le _
  · split
    · rename_i h
      obtain ⟨b, hb, -⟩ := Option.bind_eq_some_iff.1 h
      exact (List.getElem?_eq_some_iff.1 hb).1
    · rename_i h
      obtain ⟨b, -, h⟩ := Option.bind_eq_some_iff.1 h
      obtain ⟨c, hc, -⟩ := Option.bind_eq_some_iff.1 h
      exact (List.getElem?_eq_some_iff.1 hc).1
    · rename_i h
      obtain ⟨b, -, h⟩ := Option.bind_eq_some_iff.1 h
      obtain ⟨c, -, h⟩ := Option.bind_eq_some_iff.1 h
      obtain ⟨d, hd, -⟩ := Option.bind_eq_some_iff.1 h
      exact (List.getElem?_eq_some_iff.1 hd).1
    · exact Nat.zero_le _

/-- **No byte is lost.** -/
theorem ofRunes_runes (t : Text) : ofRunes (runes t) = t := by
  -- the runes behind the first one are those of a shorter text
  induction hn : t.length using Nat.strongRecOn generalizing t with
  | ind n ih =>
    cases t with
    | nil => rfl
    | cons a t =>
      rw [runes_cons, ofRunes, List.flatMap_cons, bytes_firstRune]
      have hlt : (t.drop (firstRune a t).2).length < n := by
        rw [← hn, List.length_drop, List.length_cons]
        omega
      have h := ih _ hlt _ rfl
      rw [ofRunes] at h
      rw [h, List.cons_append, List.take_append_drop]

/-- **A text that is cut off between two runes** reads as the runes in front of the cut. -/
theorem runes_ofRunes {t : Text} {rs : List Rune} (h : rs <+: runes t) :
    runes (ofRunes rs) = rs := by
  induction rs generalizing t with
  | nil => rfl
  | cons r rs ih =>
    cases t with
    | nil => exact absurd h.length_le (by simp [runes, runesAfter])
    | cons a t =>
      rw [runes_cons, List.cons_prefix_cons] at h
      obtain ⟨rfl, h⟩ := h
      -- the first rune has all its bytes in front of the cut
      have hrest : ofRunes rs <+: t.drop (firstRune a t).2 := by
        obtain ⟨ss, hss⟩ := h
        refine ⟨ofRunes ss, ?_⟩
        rw [← ofRunes_runes (t.drop (firstRune a t).2), ← hss]
        simp only [ofRunes, List.flatMap_append]
      obtain ⟨u, hu⟩ := hrest
      have ht : t = t.take (firstRune a t).2 ++ ofRunes rs ++ u := by
        rw [List.append_assoc, hu, List.take_append_drop]
      have hk := firstRune_le a t
      have hfirst : firstRune a (t.take (firstRune a t).2 ++ ofRunes rs) = firstRune a t := by
        have hle : (firstRune a (t.take (firstRune a t).2 ++ ofRunes rs ++ u)).2 ≤
            (t.take (firstRune a t).2 ++ ofRunes rs).length := by
          rw [← ht, List.length_append, List.length_take]
          omega
        rw [firstRune_append hle, ← ht]
      rw [ofRunes, List.flatMap_cons, bytes_firstRune, List.cons_append, ← ofRunes, runes_cons,
        hfirst, List.drop_append_of_le_length (by rw [List.length_take]; omega), List.drop_take,
        Nat.sub_self, List.take_zero, List.nil_append, ih h]

/-! ### Characters -/

theorem toNat_ofNat_byte {n : Nat} (h : n < 256) : (UInt8.ofNat n).toNat = n :=
  UInt8.toNat_ofNat_of_lt' h

theorem isContinuation_ofNat {n : Nat} (h₁ : 128 ≤ n) (h₂ : n ≤ 191) :
    isContinuation (UInt8.ofNat n) = true := by
  simp only [isContinuation, Bool.and_eq_true, decide_eq_true_eq, UInt8.le_iff_toNat_le,
    toNat_ofNat_byte (show n < 256 by omega), UInt8.reduceToNat]
  omega

theorem pair?_ofNat {n : Nat} (h₁ : 0x80 ≤ n) (h₂ : n ≤ 0x7FF) :
    pair? (UInt8.ofNat (n / 64 % 32 + 192)) (UInt8.ofNat (n % 64 + 128)) = some (Char.ofNat n) := by
  rw [pair?, if_pos, toNat_ofNat_byte (by omega), toNat_ofNat_byte (by omega)]
  · rw [show (n / 64 % 32 + 192 - 0xC0) * 64 + (n % 64 + 128 - 0x80) = n by omega]
  · simp only [Bool.and_eq_true, decide_eq_true_eq, UInt8.le_iff_toNat_le,
      toNat_ofNat_byte (show n / 64 % 32 + 192 < 256 by omega), UInt8.reduceToNat]
    exact ⟨by omega, isContinuation_ofNat (by omega) (by omega)⟩

theorem pair?_eq_none {a b : UInt8} (h : 0xDF < a.toNat) : pair? a b = none := by
  rw [pair?, if_neg]
  simp only [Bool.and_eq_true, decide_eq_true_eq, UInt8.le_iff_toNat_le, UInt8.reduceToNat]
  omega

theorem triple?_ofNat {n : Nat} (h₁ : 0x800 ≤ n) (h₂ : n ≤ 0xFFFF)
    (hs : ¬ (0xD800 ≤ n ∧ n ≤ 0xDFFF)) :
    triple? (UInt8.ofNat (n / 4096 % 16 + 224)) (UInt8.ofNat (n / 64 % 64 + 128))
      (UInt8.ofNat (n % 64 + 128)) = some (Char.ofNat n) := by
  have ha := toNat_ofNat_byte (show n / 4096 % 16 + 224 < 256 by omega)
  have hb := toNat_ofNat_byte (show n / 64 % 64 + 128 < 256 by omega)
  have hc := toNat_ofNat_byte (show n % 64 + 128 < 256 by omega)
  rw [triple?, if_pos, ha, hb, hc]
  · rw [show (n / 4096 % 16 + 224 - 0xE0) * 4096 + (n / 64 % 64 + 128 - 0x80) * 64
      + (n % 64 + 128 - 0x80) = n by omega]
  · have hb' : isContinuation (UInt8.ofNat (n / 64 % 64 + 128)) = true :=
      isContinuation_ofNat (by omega) (by omega)
    have hc' : isContinuation (UInt8.ofNat (n % 64 + 128)) = true :=
      isContinuation_ofNat (by omega) (by omega)
    simp only [Bool.and_eq_true, Bool.or_eq_true, decide_eq_true_eq, bne_iff_ne, ne_eq, hb', hc',
      UInt8.le_iff_toNat_le, ← UInt8.toNat_inj, ha, hb, UInt8.reduceToNat, and_true]
    omega

theorem triple?_eq_none {a b c : UInt8} (h : 0xEF < a.toNat) : triple? a b c = none := by
  rw [triple?, if_neg]
  simp only [Bool.and_eq_true, decide_eq_true_eq, UInt8.le_iff_toNat_le, UInt8.reduceToNat]
  omega

theorem quad?_ofNat {n : Nat} (h₁ : 0x10000 ≤ n) (h₂ : n < 0x110000) :
    quad? (UInt8.ofNat (n / 262144 % 8 + 240)) (UInt8.ofNat (n / 4096 % 64 + 128))
      (UInt8.ofNat (n / 64 % 64 + 128)) (UInt8.ofNat (n % 64 + 128)) = some (Char.ofNat n) := by
  have ha := toNat_ofNat_byte (show n / 262144 % 8 + 240 < 256 by omega)
  have hb := toNat_ofNat_byte (show n / 4096 % 64 + 128 < 256 by omega)
  have hc := toNat_ofNat_byte (show n / 64 % 64 + 128 < 256 by omega)
  have hd := toNat_ofNat_byte (show n % 64 + 128 < 256 by omega)
  rw [quad?, if_pos, ha, hb, hc, hd]
  · rw [show (n / 262144 % 8 + 240 - 0xF0) * 262144 + (n / 4096 % 64 + 128 - 0x80) * 4096
      + (n / 64 % 64 + 128 - 0x80) * 64 + (n % 64 + 128 - 0x80) = n by omega]
  · have hb' : isContinuation (UInt8.ofNat (n / 4096 % 64 + 128)) = true :=
      isContinuation_ofNat (by omega) (by omega)
    have hc' : isContinuation (UInt8.ofNat (n / 64 % 64 + 128)) = true :=
      isContinuation_ofNat (by omega) (by omega)
    have hd' : isContinuation (UInt8.ofNat (n % 64 + 128)) = true :=
      isContinuation_ofNat (by omega) (by omega)
    simp only [Bool.and_eq_true, Bool.or_eq_true, decide_eq_true_eq, bne_iff_ne, ne_eq, hb', hc',
      hd', UInt8.le_iff_toNat_le, ← UInt8.toNat_inj, ha, hb, UInt8.reduceToNat, and_true]
    omega

/-- **A character is read back from its bytes**, whatever follows them. -/
theorem runes_ofChar_append (c : Char) (t : Text) :
    runes (ofChar c ++ t) = .scalar c :: runes t := by
  have hc : Char.ofNat c.val.toNat = c := Char.ofNat_toNat c
  have hvalid : c.val.toNat < 0x110000 ∧ ¬ (0xD800 ≤ c.val.toNat ∧ c.val.toNat ≤ 0xDFFF) := by
    rcases c.valid with h | h <;> exact ⟨by omega, by omega⟩
  simp only [ofChar, String.utf8EncodeChar]
  generalize c.val.toNat = n at hc hvalid
  have notAscii {m : Nat} (h₁ : 128 ≤ m) (h₂ : m < 256) : ¬ UInt8.ofNat m < 0x80 := by
    rw [UInt8.lt_iff_toNat_lt, toNat_ofNat_byte h₂]
    exact Nat.not_lt.2 h₁
  have toNat_gt {m k : Nat} (h₁ : k < m) (h₂ : m < 256) : k < (UInt8.ofNat m).toNat := by
    rwa [toNat_ofNat_byte h₂]
  by_cases h₁ : n ≤ 0x7F
  · have ha : UInt8.ofNat n < 0x80 := by
      rw [UInt8.lt_iff_toNat_lt, toNat_ofNat_byte (by omega)]
      exact Nat.lt_succ_of_le h₁
    rw [if_pos h₁, List.singleton_append, runes_cons, firstRune, if_pos ha,
      toNat_ofNat_byte (by omega), hc]
    rfl
  · rw [if_neg h₁]
    by_cases h₂ : n ≤ 0x7FF
    · rw [if_pos h₂, List.cons_append, runes_cons,
        firstRune_eq_pick (notAscii (by omega) (by omega))]
      simp only [List.cons_append, List.getElem?_cons_zero, Option.bind_some,
        pair?_ofNat (Nat.lt_of_not_le h₁) h₂, hc]
      rfl
    · rw [if_neg h₂]
      by_cases h₃ : n ≤ 0xFFFF
      · have ha : 0xDF < (UInt8.ofNat (n / 4096 % 16 + 224)).toNat := toNat_gt (by omega) (by omega)
        rw [if_pos h₃, List.cons_append, runes_cons,
          firstRune_eq_pick (notAscii (by omega) (by omega))]
        simp only [List.cons_append, List.getElem?_cons_zero, List.getElem?_cons_succ,
          Option.bind_some, pair?_eq_none ha, triple?_ofNat (Nat.lt_of_not_le h₂) h₃ hvalid.2, hc]
        rfl
      · have ha : 0xEF < (UInt8.ofNat (n / 262144 % 8 + 240)).toNat :=
          toNat_gt (by omega) (by omega)
        rw [if_neg h₃, List.cons_append, runes_cons,
          firstRune_eq_pick (notAscii (by omega) (by omega))]
        simp only [List.cons_append, List.getElem?_cons_zero, List.getElem?_cons_succ,
          Option.bind_some, pair?_eq_none (Nat.lt_trans (by decide) ha), triple?_eq_none ha,
          quad?_ofNat (Nat.lt_of_not_le h₃) hvalid.1, hc]
        rfl

theorem runes_flatMap_ofChar (cs : List Char) (t : Text) :
    runes (cs.flatMap ofChar ++ t) = cs.map .scalar ++ runes t := by
  induction cs with
  | nil => rfl
  | cons c cs ih =>
    rw [List.flatMap_cons, List.append_assoc, runes_ofChar_append, ih, List.map_cons,
      List.cons_append]

/-- All bytes of a character outside ASCII are outside ASCII. -/
theorem le_of_mem_ofChar {c : Char} (hc : ¬ c.toNat < 128) {b : UInt8} (hb : b ∈ ofChar c) :
    128 ≤ b.toNat := by
  have hn : ¬ c.val.toNat ≤ 127 := fun h => hc (Nat.lt_succ_of_le h)
  simp only [ofChar, String.utf8EncodeChar] at hb
  generalize c.val.toNat = n at hb hn
  rw [if_neg hn] at hb
  split at hb
  · simp only [List.mem_cons, List.not_mem_nil, or_false] at hb
    rcases hb with rfl | rfl <;> rw [toNat_ofNat_byte (by omega)] <;> omega
  · split at hb
    · simp only [List.mem_cons, List.not_mem_nil, or_false] at hb
      rcases hb with rfl | rfl | rfl <;> rw [toNat_ofNat_byte (by omega)] <;> omega
    · simp only [List.mem_cons, List.not_mem_nil, or_false] at hb
      rcases hb with rfl | rfl | rfl | rfl <;> rw [toNat_ofNat_byte (by omega)] <;> omega

/-! ### ASCII -/

/-- The rune of an ASCII byte. -/
def asciiRune (b : UInt8) : Rune := .scalar (Char.ofNat b.toNat)

theorem runes_ascii_cons {b : UInt8} (h : b < 128) (t : Text) :
    runes (b :: t) = asciiRune b :: runes t := by
  have hb : firstRune b t = (asciiRune b, 0) := by
    rw [firstRune, if_pos h]
    rfl
  rw [runes_cons, hb, List.drop_zero]

theorem runes_ascii_append {t : Text} (h : ∀ b ∈ t, b < 128) (u : Text) :
    runes (t ++ u) = t.map asciiRune ++ runes u := by
  induction t with
  | nil => rfl
  | cons b t ih =>
    rw [List.cons_append, runes_ascii_cons (h b (by simp)), ih fun c hc => h c (by simp [hc]),
      List.map_cons, List.cons_append]

theorem ofRunes_ascii {t : Text} (h : ∀ b ∈ t, b < 128) : ofRunes (t.map asciiRune) = t := by
  have ht := ofRunes_runes t
  rwa [← List.append_nil t, runes_ascii_append h, List.append_nil,
    show runes [] = [] from rfl, List.append_nil] at ht

/-- Whether the byte is a visible ASCII character. -/
def isVisible (b : UInt8) : Bool := 32 < b && b < 127

theorem lt_of_isVisible {b : UInt8} (h : isVisible b = true) : b < 128 := by
  simp only [isVisible, Bool.and_eq_true, decide_eq_true_eq] at h
  exact UInt8.lt_trans h.2 (by decide)

theorem isBlank_asciiRune {b : UInt8} (h : isVisible b = true) :
    (asciiRune b).isBlank = false := by
  simp only [isVisible, Bool.and_eq_true, decide_eq_true_eq, UInt8.lt_iff_toNat_lt,
    UInt8.reduceToNat] at h
  have hc : (Char.ofNat b.toNat).toNat = b.toNat := toNat_charOfNat (.inl (by omega))
  simp only [asciiRune, Rune.isBlank, hc, Rune.blankCode]
  simp only [Bool.or_eq_false_iff, Bool.and_eq_false_iff, decide_eq_false_iff_not,
    beq_eq_false_iff_ne]
  omega

/-! ### Trimming -/

theorem rdropWhile_append_of_blank (rs : List Rune) {ss : List Rune}
    (h : ∀ s ∈ ss, s.isBlank = true) :
    (rs ++ ss).rdropWhile Rune.isBlank = rs.rdropWhile Rune.isBlank := by
  have hs : ss.reverse.dropWhile Rune.isBlank = [] :=
    List.dropWhile_eq_nil_iff.2 fun s hs => h s (List.mem_reverse.1 hs)
  simp [List.rdropWhile, List.dropWhile_append, hs]

theorem rdropWhile_append_of_not_blank (rs : List Rune) {ss : List Rune}
    (h : ss.all Rune.isBlank = false) :
    (rs ++ ss).rdropWhile Rune.isBlank = rs ++ ss.rdropWhile Rune.isBlank := by
  have hs : ss.reverse.dropWhile Rune.isBlank ≠ [] := by
    intro he
    rw [List.dropWhile_eq_nil_iff] at he
    rw [List.all_eq_true.2 fun s hs => he s (List.mem_reverse.2 hs)] at h
    cases h
  simp [List.rdropWhile, List.dropWhile_append, hs]

/-- A text without the blanks at its end. -/
def trimEnd (t : Text) : Text := ofRunes ((runes t).rdropWhile Rune.isBlank)

theorem trim_trimEnd (t : Text) : (trimEnd t).trim = t.trim := by
  have hr : ∀ rs : List Rune, trimRunes (rs.rdropWhile Rune.isBlank) = trimRunes rs := by
    intro rs
    -- the blanks at the end of the runes are all that is missing
    have hs : ∀ s ∈ rs.rtakeWhile Rune.isBlank, s.isBlank = true :=
      fun s hs => List.mem_rtakeWhile_imp hs
    conv_rhs => rw [← List.rdropWhile_append_rtakeWhile (p := Rune.isBlank) (l := rs)]
    change List.rdropWhile _ (List.dropWhile _ _) = List.rdropWhile _ (List.dropWhile _ _)
    rw [List.dropWhile_append]
    split
    · rename_i he
      rw [List.dropWhile_eq_nil_iff.2 hs, List.isEmpty_iff.1 he]
    · rw [rdropWhile_append_of_blank _ hs]
  rw [trim, trimEnd, runes_ofRunes (List.rdropWhile_prefix _ _), hr, trim]

theorem trimRunes_cons {r : Rune} (h : r.isBlank = false) (rs : List Rune) :
    trimRunes (r :: rs) = (r :: rs).rdropWhile Rune.isBlank := by
  rw [trimRunes, List.dropWhile_cons, if_neg (by simp [h])]
  rfl

/-- A visible character at the start stays. -/
theorem trim_cons {b : UInt8} (hb : isVisible b = true) (t : Text) :
    ∃ u, trim (b :: t) = b :: u := by
  have hr : runes (b :: t) = asciiRune b :: runes t := runes_ascii_cons (lt_of_isVisible hb) t
  have hpre : [asciiRune b] <+: ([asciiRune b] ++ runes t).rdropWhile Rune.isBlank := by
    cases ha : (runes t).all Rune.isBlank with
    | true =>
      have hs : ([asciiRune b] ++ runes t).rdropWhile Rune.isBlank = [asciiRune b] := by
        rw [rdropWhile_append_of_blank _ (List.all_eq_true.1 ha), List.rdropWhile_singleton,
          if_neg (by simp [isBlank_asciiRune hb])]
      simp only [hs, List.prefix_rfl]
    | false =>
      rw [rdropWhile_append_of_not_blank _ ha]
      exact List.prefix_append _ _
  obtain ⟨ss, hss⟩ := hpre
  refine ⟨ofRunes ss, ?_⟩
  rw [trim, hr, trimRunes_cons (isBlank_asciiRune hb), ← List.singleton_append, ← hss]
  have hbytes : (asciiRune b).bytes = [b] := ofChar_ofNat_ascii (lt_of_isVisible hb)
  simp [ofRunes, hbytes]

/-- A text behind an ASCII mark loses the blanks at its end, unless it is blank. -/
theorem trim_append {m t : Text} (hm : m.all (· < 128) = true)
    (hv : m.head?.any isVisible = true) (ht : t.isBlank = false) :
    (m ++ t).trim = m ++ trimEnd t := by
  have hm : ∀ b ∈ m, b < 128 := by simpa [List.all_eq_true] using hm
  cases m with
  | nil => cases hv
  | cons b m =>
    rw [trim, runes_ascii_append hm, List.map_cons, List.cons_append,
      trimRunes_cons (isBlank_asciiRune hv), ← List.cons_append,
      rdropWhile_append_of_not_blank _ ht, ← List.map_cons, ofRunes, List.flatMap_append, ← ofRunes,
      ofRunes_ascii hm]
    rfl

/-- Spaces and visible characters, with visible ones at both ends. -/
structure IsSolid (t : Text) : Prop where
  plain : ∀ b ∈ t, b = 32 ∨ isVisible b = true
  head : t.head?.any isVisible = true
  last : t.getLast?.any isVisible = true

namespace IsSolid

theorem of_visible {t : Text} (hne : t ≠ []) (h : ∀ b ∈ t, isVisible b = true) : IsSolid t where
  plain b hb := .inr (h b hb)
  head := by
    rw [List.head?_eq_some_head hne]
    exact h _ (List.head_mem hne)
  last := by
    rw [List.getLast?_eq_some_getLast hne]
    exact h _ (List.getLast_mem hne)

theorem append {s m t : Text} (hs : IsSolid s)
    (hm : (m.all fun b => b == 32 || isVisible b) = true) (ht : IsSolid t) :
    IsSolid (s ++ m ++ t) where
  plain := by
    have hm : ∀ b ∈ m, b = 32 ∨ isVisible b = true := by simpa [List.all_eq_true] using hm
    simp only [List.mem_append]
    rintro b ((h | h) | h)
    exacts [hs.plain b h, hm b h, ht.plain b h]
  head := by
    have := hs.head
    cases s <;> simp_all
  last := by
    have := ht.last
    cases h : t.getLast? <;> simp_all [List.getLast?_append]

variable {t : Text} (h : IsSolid t)

include h

theorem ascii : ∀ b ∈ t, b < 128 := by
  intro b hb
  rcases h.plain b hb with rfl | hv
  · decide
  · exact lt_of_isVisible hv

theorem newline_notMem : (10 : UInt8) ∉ t := by
  intro hb
  rcases h.plain 10 hb with he | hv
  · exact absurd he (by decide)
  · exact absurd hv (by decide)

theorem ne_nil : t ≠ [] := by
  rintro rfl
  exact absurd h.head (by simp)

theorem trim_eq : t.trim = t := by
  have hr : runes t = t.map asciiRune := by
    simpa [show runes [] = [] from rfl] using runes_ascii_append h.ascii []
  have hl : (t.map asciiRune).rdropWhile Rune.isBlank = t.map asciiRune := by
    rw [List.rdropWhile_eq_self_iff]
    intro hne
    rw [List.getLast_map, Bool.not_eq_true]
    apply isBlank_asciiRune
    have := h.last
    rwa [List.getLast?_eq_some_getLast (by simpa using hne)] at this
  cases t with
  | nil => rfl
  | cons b t =>
    rw [trim, hr, List.map_cons, trimRunes_cons (isBlank_asciiRune h.head), ← List.map_cons, hl,
      ofRunes_ascii h.ascii]

end IsSolid

theorem dropPrefix?_append (m t : Text) : (m ++ t).dropPrefix? m = some t := by
  induction m with
  | nil => cases t <;> rfl
  | cons b m ih => rw [List.cons_append, dropPrefix?, if_pos rfl, ih]

/-! ### Words -/

theorem runsBetween_cons_of_sep {sep : Rune → Bool} {r : Rune} (h : sep r = true)
    (rs : List Rune) : runsBetween sep (r :: rs) = runsBetween sep rs := by
  rw [runsBetween.eq_def]
  simp only [h, ↓reduceIte]

theorem runsBetween_cons_cons {sep : Rune → Bool} {r : Rune} (h : sep r = false) (s : Rune)
    (ss : List Rune) :
    runsBetween sep (r :: s :: ss) = match runsBetween sep (s :: ss) with
      | w :: ws => if sep s then [r] :: w :: ws else (r :: w) :: ws
      | [] => [[r]] := by
  rw [runsBetween.eq_def]
  simp only [h, Bool.false_eq_true, ↓reduceIte]
  generalize runsBetween sep (s :: ss) = ws
  cases ws <;> rfl

theorem runsBetween_append {sep : Rune → Bool} {rs ss : List Rune} (hne : rs ≠ [])
    (hr : ∀ r ∈ rs, sep r = false) (hs : ∀ s ∈ ss.head?, sep s = true) :
    runsBetween sep (rs ++ ss) = rs :: runsBetween sep ss := by
  induction rs with
  | nil => exact absurd rfl hne
  | cons r rs ih =>
    have h₀ : sep r = false := hr r (by simp)
    cases rs with
    | nil =>
      cases ss with
      | nil => simp [runsBetween, h₀]
      | cons s ss =>
        have h₁ : sep s = true := hs s (by simp)
        rw [List.singleton_append, runsBetween_cons_cons h₀]
        cases runsBetween sep (s :: ss) <;> simp [h₁]
    | cons r' rs =>
      have h := ih (by simp) fun x hx => hr x (by simp [hx])
      have h₁ : sep r' = false := hr r' (by simp)
      rw [List.cons_append] at h
      rw [List.cons_append, List.cons_append, runsBetween_cons_cons h₀, h]
      simp [h₁]

theorem words_space (t : Text) : words (32 :: t) = words t := by
  have hb : (asciiRune 32).isBlank = true := by decide
  rw [words, runes_ascii_cons (by decide), runsBetween_cons_of_sep hb, words]

/-- **A word of visible characters** is found again, if the text ends or a blank stands behind
it. -/
theorem words_append {w t : Text} (hne : w ≠ []) (hw : ∀ b ∈ w, isVisible b = true)
    (ht : ∀ b ∈ t.head?, b = 32) : words (w ++ t) = w :: words t := by
  have hascii : ∀ b ∈ w, b < 128 := fun b hb => lt_of_isVisible (hw b hb)
  have hhead : ∀ s ∈ (runes t).head?, s.isBlank = true := by
    cases t with
    | nil => simp [show runes [] = [] from rfl]
    | cons b t =>
      obtain rfl : b = 32 := ht b (by simp)
      rw [runes_ascii_cons (by decide)]
      simpa using show (asciiRune 32).isBlank = true by decide
  rw [words, runes_ascii_append hascii, runsBetween_append (by simpa using hne) ?_ hhead,
    List.map_cons, ofRunes_ascii hascii, words]
  simp only [List.mem_map]
  rintro r ⟨b, hb, rfl⟩
  exact isBlank_asciiRune (hw b hb)

/-! ### Lines -/

theorem split_ne_nil (sep : UInt8) (t : Text) : split sep t ≠ [] := by
  cases t with
  | nil => simp [split]
  | cons b t =>
    rw [split]
    split
    · simp
    · split <;> simp

theorem split_append_cons (sep : UInt8) (s t : Text) :
    split sep (s ++ sep :: t) = split sep s ++ split sep t := by
  induction s with
  | nil => simp [split]
  | cons b s ih =>
    rw [List.cons_append, split, split, ih]
    split
    · rfl
    · cases hs : split sep s with
      | nil => exact absurd hs (split_ne_nil sep s)
      | cons p ps => rfl

theorem split_of_notMem {sep : UInt8} {t : Text} (h : sep ∉ t) : split sep t = [t] := by
  induction t with
  | nil => rfl
  | cons b t ih =>
    rw [List.mem_cons, not_or] at h
    rw [split, if_neg (Ne.symm h.1), ih h.2]

theorem split_append {sep : UInt8} {l : Text} (h : sep ∉ l) (t : Text) :
    split sep (l ++ sep :: t) = l :: split sep t := by
  rw [split_append_cons, split_of_notMem h, List.singleton_append]

/-- **Lines** that hold no line feed are found again, and so is what stands behind the last one. -/
theorem split_lines_append {ls : List Text} (h : ∀ l ∈ ls, (10 : UInt8) ∉ l) {t : Text}
    (ht : (10 : UInt8) ∉ t) : split 10 ((ls.flatMap fun l => l ++ newline) ++ t) = ls ++ [t] := by
  induction ls with
  | nil => exact split_of_notMem ht
  | cons l ls ih =>
    rw [List.flatMap_cons, List.append_assoc, List.append_assoc, newline, List.singleton_append,
      split_append (h l (by simp)), ← newline, ih fun x hx => h x (by simp [hx]), List.cons_append]

end StumpGen.Text
