import StumpGen.Cache
import Mathlib.Algebra.Group.Nat.Defs
import Mathlib.Data.List.Induction

/-!
# Entries of a cache are read back

Whatever the cache writes it reads again.  Each reader of MessagePack values is shown to take
exactly what the writer has put down and to leave the bytes behind it, whatever they are.  From
these statements the one about whole entries follows field by field.

* `MessagePack.text_ofText`, `MessagePack.integer_ofInt` : texts and integers of 64 bits.
* `Cache.Entry.decode_encode` : **an entry whose numbers fit is read back as it was written**.
* `Cache.Entry.length_output_of_decode` : **no entry that is read has an output of `2 ^ 32` bytes or
  more**, so one with such an output is written and never found.
* `Cache.Entry.decode_ascii` : a text that starts with an ASCII character is no entry.
-/

namespace StumpGen

namespace MessagePack

/-! ### Numbers of fixed width -/

@[simp] theorem length_big (n v : Nat) : (big n v).length = n := by
  induction n generalizing v with
  | zero => rfl
  | succ n ih => simp [big, ih]

theorem number_concat (t : Text) (b : UInt8) : number (t ++ [b]) = 256 * number t + b.toNat := by
  simp [number]

theorem number_big {n v : Nat} (h : v < 256 ^ n) : number (big n v) = v := by
  induction n generalizing v with
  | zero =>
    have : v = 0 := Nat.lt_one_iff.1 h
    subst this
    rfl
  | succ n ih =>
    have hv : v / 256 < 256 ^ n := Nat.div_lt_of_lt_mul (by rwa [Nat.pow_succ'] at h)
    have hb : ((v % 256).toUInt8).toNat = v % 256 := by simp
    rw [big, number_concat, ih hv, hb]
    omega

theorem take_append {n : Nat} {bs : Text} (h : bs.length = n) (rest : Text) :
    take n (bs ++ rest) = some (bs, rest) := by
  simp [take, ← h]

theorem unsigned_big {n v : Nat} (h : v < 256 ^ n) (rest : Text) :
    unsigned n (big n v ++ rest) = some (v, rest) := by
  simp [unsigned, take_append (length_big n v), number_big h]

theorem sized_big {n v : Nat} (h : v < 256 ^ n) (f : Nat → Head) (rest : Text) :
    sized n f (big n v ++ rest) = some (f v, rest) := by
  simp [sized, unsigned_big h]

/-- The upper half of the numbers of `n` bytes stands for negative ones. -/
theorem signed_big {n v : Nat} (h : v < 256 ^ n) (hv : 256 ^ n ≤ 2 * v) (rest : Text) :
    signed n (big n v ++ rest) = some ((v : Int) - (256 ^ n : Nat), rest) := by
  have hv : ¬ 2 * v < 256 ^ n := by omega
  simp [signed, unsigned_big h, hv]

/-! ### Heads of one byte -/

section Byte

variable {b : UInt8} (t : Text)

theorem head_ascii (h : b.toNat < 0x80) : head (b :: t) = some (.integer b.toNat, t) := by
  rw [head, if_pos (UInt8.lt_iff_toNat_lt.2 h)]

theorem head_shortMap (h : 0x80 ≤ b.toNat) (h' : b.toNat < 0x90) :
    head (b :: t) = some (.map (b.toNat - 0x80), t) := by
  have low : ¬ b < 0x80 := by
    rw [UInt8.lt_iff_toNat_lt]
    exact Nat.not_lt.2 h
  rw [head, if_neg low, if_pos (UInt8.lt_iff_toNat_lt.2 h')]

theorem head_shortArray (h : 0x90 ≤ b.toNat) (h' : b.toNat < 0xa0) :
    head (b :: t) = some (.array (b.toNat - 0x90), t) := by
  have low {c : UInt8} (hc : c.toNat ≤ 0x90) : ¬ b < c := by
    rw [UInt8.lt_iff_toNat_lt]
    omega
  rw [head, if_neg (low (by decide)), if_neg (low (by decide)),
    if_pos (UInt8.lt_iff_toNat_lt.2 h')]

theorem head_shortText (h : 0xa0 ≤ b.toNat) (h' : b.toNat < 0xc0) :
    head (b :: t) = some (.text (b.toNat - 0xa0), t) := by
  have low {c : UInt8} (hc : c.toNat ≤ 0xa0) : ¬ b < c := by
    rw [UInt8.lt_iff_toNat_lt]
    omega
  rw [head, if_neg (low (by decide)), if_neg (low (by decide)), if_neg (low (by decide)),
    if_pos (UInt8.lt_iff_toNat_lt.2 h')]

theorem head_negative (h : 0xe0 ≤ b.toNat) :
    head (b :: t) = some (.integer (b.toNat - 256), t) := by
  have low {c : UInt8} (hc : c.toNat ≤ 0xe0) : ¬ b < c := by
    rw [UInt8.lt_iff_toNat_lt]
    omega
  rw [head, if_neg (low (by decide)), if_neg (low (by decide)), if_neg (low (by decide)),
    if_neg (low (by decide)), if_pos (show (0xe0 : UInt8) ≤ b from UInt8.le_iff_toNat_le.2 h)]

end Byte

/-! ### Texts -/

theorem head_textHead {n : Nat} (h : n < 0x100000000) (rest : Text) :
    head (textHead n ++ rest) = some (.text n, rest) := by
  unfold textHead
  split
  next hn =>
    have hb : ((0xa0 + n).toUInt8).toNat = 0xa0 + n := Nat.mod_eq_of_lt (by omega)
    rw [List.singleton_append, head_shortText rest (by omega) (by omega), hb,
      Nat.add_sub_cancel_left]
  next =>
  split
  next hn => exact sized_big (n := 1) hn .text rest
  next =>
  split
  next hn => exact sized_big (n := 2) hn .text rest
  next => exact sized_big (n := 4) h .text rest

theorem text_ofText {t : Text} (h : t.length < 0x100000000) (rest : Text) :
    text (ofText t ++ rest) = some (t, rest) := by
  simp [text, ofText, head_textHead h, take_append]

/-! ### Sizes that a reader can find

The head of a text has at most four bytes for the size.  A writer that is given a longer text puts
down what is left of its size. -/

theorem number_lt (t : Text) : number t < 256 ^ t.length := by
  induction t using List.reverseRecOn with
  | nil => decide
  | append_singleton t b ih =>
    have hb := b.toNat_lt
    rw [number_concat, List.length_append, List.length_singleton, Nat.pow_succ']
    omega

theorem length_of_take {n : Nat} {t bs rest : Text} (h : take n t = some (bs, rest)) :
    bs.length = n := by
  rw [take] at h
  split at h
  next hn =>
    cases h
    exact hn
  next => cases h

theorem lt_of_unsigned {n v : Nat} {t rest : Text} (h : unsigned n t = some (v, rest)) :
    v < 256 ^ n := by
  obtain ⟨⟨bs, u⟩, hbs, hv⟩ := Option.map_eq_some_iff.1 h
  cases hv
  have hlt := number_lt bs
  rwa [length_of_take hbs] at hlt

theorem lt_of_sized {k n : Nat} (hk : k ≤ 4) {t rest : Text}
    (h : sized k .text t = some (.text n, rest)) : n < 0x100000000 := by
  obtain ⟨⟨v, u⟩, hv, heq⟩ := Option.map_eq_some_iff.1 h
  obtain rfl : v = n := Head.text.inj (Prod.mk.inj heq).1
  calc v < 256 ^ k := lt_of_unsigned hv
    _ ≤ 256 ^ 4 := Nat.pow_le_pow_right (by decide) hk

theorem lt_of_head {t rest : Text} {n : Nat} (h : head t = some (.text n, rest)) :
    n < 0x100000000 := by
  revert h
  fun_cases head t <;> intro h
  case case5 b u _ _ _ _ =>
    -- the size stands in the byte itself
    have hb := b.toNat_lt
    obtain ⟨rfl, -⟩ : b.toNat - 0xa0 = n ∧ u = rest := by simpa using h
    omega
  all_goals first
    | exact lt_of_sized (by decide) h
    -- other heads are those of no text
    | simp [sized, extension, sizedExtension, Option.bind_eq_some_iff] at h

theorem length_of_text {t x rest : Text} (h : text t = some (x, rest)) :
    x.length < 0x100000000 := by
  rw [text] at h
  split at h
  next n u hh => exact length_of_take h ▸ lt_of_head hh
  next =>
    cases h
    decide
  next => cases h

/-! ### Integers -/

/-- Whether an integer has 64 bits. -/
def IsWord (v : Int) : Prop := -0x8000000000000000 ≤ v ∧ v < 0x8000000000000000

theorem integer_of_head {t rest : Text} {v : Int} (hv : IsWord v)
    (h : head t = some (.integer v, rest)) : integer t = some (v, rest) := by
  obtain ⟨h₁, h₂⟩ := hv
  rw [integer, h]
  exact congrArg (fun v => some (v, rest)) (Int.bmod_eq_of_le (by omega) (by omega))

theorem head_ofInt_ofNat {n : Nat} (h : n < 0x8000000000000000) (rest : Text) :
    head (ofInt (.ofNat n) ++ rest) = some (.integer n, rest) := by
  rw [ofInt]
  split
  next hn =>
    have hb : n.toUInt8.toNat = n := Nat.mod_eq_of_lt (by omega)
    rw [List.singleton_append, head_ascii rest (by omega), hb]
  next =>
  split
  next hn => exact sized_big (n := 1) hn (fun v => .integer v) rest
  next =>
  split
  next hn => exact sized_big (n := 2) hn (fun v => .integer v) rest
  next =>
  split
  next hn => exact sized_big (n := 4) hn (fun v => .integer v) rest
  next => exact sized_big (n := 8) (by omega) (fun v => .integer v) rest

/-- A head that takes a signed number finds the negative number that was written. -/
theorem signed_complement {n v k : Nat} (hv : v + k + 1 = 256 ^ n) (hk : 2 * (k + 1) ≤ 256 ^ n)
    (rest : Text) :
    ((signed n (big n v ++ rest)).map fun (v, rest) => (Head.integer v, rest))
      = some (.integer (.negSucc k), rest) := by
  have hvk : (v : Int) - (256 ^ n : Nat) = Int.negSucc k := by omega
  rw [signed_big (by omega) (by omega), hvk, Option.map_some]

theorem head_ofInt_negSucc {n : Nat} (h : n < 0x8000000000000000) (rest : Text) :
    head (ofInt (.negSucc n) ++ rest) = some (.integer (.negSucc n), rest) := by
  rw [ofInt]
  split
  next hn =>
    have hb : (255 - n).toUInt8.toNat = 255 - n := Nat.mod_eq_of_lt (by omega)
    rw [List.singleton_append, head_negative rest (by omega), hb]
    have : ((255 - n : Nat) : Int) - 256 = Int.negSucc n := by omega
    rw [this]
  next =>
  split
  next => exact signed_complement (n := 1) (by omega) (by omega) rest
  next =>
  split
  next => exact signed_complement (n := 2) (by omega) (by omega) rest
  next =>
  split
  next => exact signed_complement (n := 4) (by omega) (by omega) rest
  next => exact signed_complement (n := 8) (by omega) (by omega) rest

theorem integer_ofInt {v : Int} (h : IsWord v) (rest : Text) :
    integer (ofInt v ++ rest) = some (v, rest) := by
  obtain ⟨h₁, h₂⟩ := h
  cases v with
  | ofNat n => exact integer_of_head ⟨h₁, h₂⟩ (head_ofInt_ofNat (Int.ofNat_lt.1 h₂) rest)
  | negSucc n => exact integer_of_head ⟨h₁, h₂⟩ (head_ofInt_negSucc (by omega) rest)

end MessagePack

namespace Cache.Entry

open MessagePack

/-- The fields of an entry have the sizes that they are written with. -/
structure Fits (e : Entry) : Prop where
  schema : e.schema < 0x10000
  output : e.output.length < 0x100000000
  fingerprint : e.fingerprint.bytes.length = 32
  words : IsWord e.words
  capacity : IsWord e.capacity

/-- A named field in front of others is read over the entry. -/
theorem readNamed_field {n : Nat} {e e' : Entry} {k v rest : Text} {f : Field}
    (hk : k.length < 0x100000000) (hf : (fields.find? fun f => (f.1 : Text) = k) = some f)
    (hv : f.2 e (v ++ rest) = some (e', rest)) :
    readNamed (n + 1) e (ofText k ++ v ++ rest) = readNamed n e' rest := by
  simp [readNamed, text_ofText hk, hf, hv]

theorem field_append {α : Type} {name : String} {read : Text → Option (Found α)}
    {set : Entry → α → Entry} {v rest : Text} {a : α} (h : read (v ++ rest) = some (a, rest))
    (e : Entry) : (field name read set).2 e (v ++ rest) = some (set e a, rest) := by
  simp [field, h]

theorem readFingerprint_ofBytes {d : Digest} (h : d.bytes.length = 32) (old : Digest)
    (hold : old.bytes.length = 32) (rest : Text) :
    readFingerprint old (ofBytes d.bytes ++ rest) = some (d, rest) := by
  have hh : head (ofBytes d.bytes ++ rest) = some (.text 32, d.bytes ++ rest) := by
    rw [ofBytes, h, List.append_assoc]
    exact sized_big (n := 1) (by decide) .text (d.bytes ++ rest)
  have hd : old.bytes.drop 32 = [] := List.drop_eq_nil_of_le (by omega)
  simp [readFingerprint, hh, take_append h, hd]

/-- The number of a version, which always takes two bytes. -/
theorem integer_schema {n : Nat} (h : n < 0x10000) (rest : Text) :
    integer (0xcd :: big 2 n ++ rest) = some ((n : Int), rest) :=
  integer_of_head ⟨by omega, by omega⟩ (sized_big (n := 2) h (fun v => .integer v) rest)

theorem decode_ofEntries (entries : List (Text × Text)) (h : entries.length = 5) :
    decode (ofEntries entries) = readNamed 5 {} (entries.flatMap fun (k, v) => ofText k ++ v) := by
  rw [ofEntries, h]
  rfl

/-- **An entry is read back as it was written.** -/
theorem decode_encode {e : Entry} (h : e.Fits) : decode e.encode = some e := by
  have short {k : Text} (hk : decide (k.length < 32) = true) : k.length < 0x100000000 :=
    Nat.lt_trans (of_decide_eq_true hk) (by decide)
  have hs : ((e.schema : Int) % 65536).toNat = e.schema := by
    have := h.schema
    omega
  calc decode e.encode
    _ = readNamed 5 {} (ofText "Schema" ++ (0xcd :: big 2 e.schema)
          ++ (ofText "Output" ++ ofText e.output
          ++ (ofText "Fingerprint" ++ ofBytes e.fingerprint.bytes
          ++ (ofText "Words" ++ ofInt e.words
          ++ (ofText "Capacity" ++ ofInt e.capacity ++ []))))) := by
        rw [encode, decode_ofEntries _ rfl]
        simp only [List.flatMap_cons, List.flatMap_nil]
    _ = readNamed 4 { schema := e.schema } _ :=
        readNamed_field (short rfl) rfl (by rw [field_append (integer_schema h.schema _), hs])
    _ = readNamed 3 { schema := e.schema, output := e.output } _ :=
        readNamed_field (short rfl) rfl (field_append (text_ofText h.output _) _)
    _ = readNamed 2 { e with words := 0, capacity := 0 } _ :=
        readNamed_field (short rfl) rfl
          (by simp [readFingerprint_ofBytes h.fingerprint])
    _ = readNamed 1 { e with capacity := 0 } _ :=
        readNamed_field (short rfl) rfl (field_append (integer_ofInt h.words _) _)
    _ = readNamed 0 e _ :=
        readNamed_field (short rfl) rfl (field_append (integer_ofInt h.capacity _) _)
    _ = some e := rfl

/-! ### Outputs that can be read -/

section Outputs

variable {e e' : Entry} {t rest : Text}

/-- A field that is read leaves an output that a reader can find. -/
theorem length_output_of_field {f : Field} (hf : f ∈ fields)
    (he : e.output.length < 0x100000000) (h : f.2 e t = some (e', rest)) :
    e'.output.length < 0x100000000 := by
  simp only [fields, List.mem_cons, List.not_mem_nil, or_false] at hf
  rcases hf with rfl | rfl | rfl | rfl | rfl <;>
    obtain ⟨⟨v, u⟩, hv, heq⟩ := Option.map_eq_some_iff.1 h <;> cases heq
  case inr.inl => exact length_of_text hv
  all_goals exact he

theorem length_output_of_readNamed {n : Nat} (he : e.output.length < 0x100000000)
    (h : readNamed n e t = some e') : e'.output.length < 0x100000000 := by
  induction n generalizing e t with
  | zero =>
    cases h
    exact he
  | succ n ih =>
    obtain ⟨⟨k, u⟩, -, h⟩ := Option.bind_eq_some_iff.1 h
    dsimp only at h
    split at h
    next f hf =>
      obtain ⟨⟨e₁, u⟩, hf₁, h⟩ := Option.bind_eq_some_iff.1 h
      exact ih (length_output_of_field (List.mem_of_find?_eq_some hf) he hf₁) h
    next =>
      obtain ⟨u, -, h⟩ := Option.bind_eq_some_iff.1 h
      exact ih he h

theorem length_output_of_readInOrder {fs : List Field} (hfs : fs ⊆ fields)
    (he : e.output.length < 0x100000000) (h : readInOrder fs e t = some e') :
    e'.output.length < 0x100000000 := by
  induction fs generalizing e t with
  | nil =>
    cases h
    exact he
  | cons f fs ih =>
    obtain ⟨⟨e₁, u⟩, hf₁, h⟩ := Option.bind_eq_some_iff.1 h
    obtain ⟨hf, hfs⟩ := List.cons_subset.1 hfs
    exact ih hfs (length_output_of_field hf he hf₁) h

/-- **An entry that is read has an output of less than `2 ^ 32` bytes.** -/
theorem length_output_of_decode (h : decode t = some e) : e.output.length < 0x100000000 := by
  have hnew : ({} : Entry).output.length < 0x100000000 := by decide
  rw [decode] at h
  split at h
  next =>
    cases h
    exact hnew
  next =>
    cases h
    exact hnew
  next => exact length_output_of_readNamed hnew h
  next =>
    split at h
    next => exact length_output_of_readInOrder (List.Subset.refl _) hnew h
    next => cases h
  next => cases h

end Outputs

/-- What starts with an ASCII character is a number and no entry. -/
theorem decode_ascii {b : UInt8} (h : b.toNat < 0x80) (t : Text) : decode (b :: t) = none := by
  rw [decode, head_ascii t h]

end Cache.Entry

end StumpGen
