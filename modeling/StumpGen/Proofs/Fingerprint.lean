import StumpGen.Job
import StumpGen.Proofs.Layout
import StumpGen.Proofs.Packing
import StumpGen.Proofs.PlainText
import Mathlib.Data.Set.Function

/-!
# What a fingerprint determines

The fingerprint of a job is a digest of two digests, one of the input and one of the options
written as one text.  If no two texts that were hashed share a digest, then jobs with the same
fingerprint have read the same input, and so the same program: no text is a document in both
formats.  Their options need not be the same, since the text of the options does not tell where
the origin ends and the entry begins.  But the capacity is, and the size of the image depends on
no other option.

* `Job.Request.fingerprint_injOn` : equal fingerprints come from equal inputs and equal texts of
  the options.
* `Document.decode_unique` : **no text is a document in both formats**.
* `Job.Request.capacity_of_optionsKey` : the text of the options determines the capacity.
* `compile_stats_eq` : **the size of an image depends on the program and the capacity only**.
-/

namespace StumpGen

namespace Digest

@[simp] theorem length_bigEndian (width n : Nat) : (bigEndian width n).length = width := by
  simp [bigEndian]

@[simp] theorem length_bytes_ofText (t : Text) : (ofText t).bytes.length = 32 := by
  simp [ofText]

/-- The text that the digest of two texts' digests is taken of. -/
def joined (a b : Text) : Text := [ofText a, ofText b].flatMap bytes

theorem joined_injOn {S : Set Text} (h : S.InjOn ofText) {a b a' b' : Text} (ha : a ∈ S)
    (hb : b ∈ S) (ha' : a' ∈ S) (hb' : b' ∈ S) (he : joined a b = joined a' b') :
    a = a' ∧ b = b' := by
  simp only [joined, List.flatMap_cons, List.flatMap_nil, List.append_nil] at he
  obtain ⟨h₁, h₂⟩ := List.append_inj he (by simp)
  have ext {d d' : Digest} (h : d.bytes = d'.bytes) : d = d' := by
    cases d
    cases d'
    exact congrArg Digest.mk h
  exact ⟨h ha ha' (ext h₁), h hb hb' (ext h₂)⟩

end Digest

/-! ### Options -/

namespace Job.Request

theorem capacity_of_optionsKey {r s : Request} (h : r.optionsKey = s.optionsKey) :
    r.options.capacity = s.options.capacity := by
  have split (q : Request) :
      ∃ t : Text, q.optionsKey = t ++ 61 :: Text.ofInt q.options.capacity := by
    refine ⟨"org=" ++ q.options.org ++ " entry=" ++ q.options.entry ++ " capacity", ?_⟩
    simp only [optionsKey, List.append_assoc]
    rfl
  obtain ⟨t, ht⟩ := split r
  obtain ⟨u, hu⟩ := split s
  rw [ht, hu] at h
  have hn (v : Int) : (61 : UInt8) ∉ Text.ofInt v := Text.notMem_ofInt (by decide) (by decide) v
  exact Text.ofInt_injective (Text.append_cons_inj_right (hn _) (hn _) h)

/-- The texts whose digests make up the fingerprint of a job that has read `contents`. -/
def hashed (r : Request) (contents : Text) : List Text :=
  [contents, r.optionsKey, Digest.joined contents r.optionsKey]

/-- **Equal fingerprints** come from equal inputs and options that read the same, if no two of
the texts that were hashed share a digest. -/
theorem fingerprint_injOn {S : Set Text} (h : S.InjOn Digest.ofText) {r s : Request} {a b : Text}
    (hr : ∀ t ∈ r.hashed a, t ∈ S) (hs : ∀ t ∈ s.hashed b, t ∈ S)
    (he : r.fingerprint a = s.fingerprint b) : a = b ∧ r.optionsKey = s.optionsKey := by
  simp only [hashed, List.forall_mem_cons] at hr hs
  obtain ⟨ha, hk, hj, -⟩ := hr
  obtain ⟨hb, hl, hi, -⟩ := hs
  exact Digest.joined_injOn h ha hk hb hl (h hj hi he)

end Job.Request

/-! ### Formats -/

namespace Text

/-- A character of one byte is that byte. -/
theorem lt_of_ofChar {c : Char} {b : UInt8} {t : Text} (h : ofChar c = b :: t)
    (hb : ¬ b < 0x80) : 128 ≤ c.toNat := by
  by_contra hc
  have hc : c.toNat < 128 := Nat.lt_of_not_le hc
  have hn : (UInt8.ofNat c.toNat).toNat = c.toNat :=
    UInt8.toNat_ofNat_of_lt' (Nat.lt_trans hc (by decide))
  have hlt : UInt8.ofNat c.toNat < 128 := by
    rwa [UInt8.lt_iff_toNat_lt, hn]
  have := ofChar_ofNat_ascii hlt
  rw [hn, Char.ofNat_toNat, h] at this
  exact hb ((List.cons.inj this).1 ▸ hlt)

end Text

namespace Toml

/-- Whether no line of a TOML text starts with the character. -/
def isForeign (c : Char) : Bool := c == unreadable || 128 ≤ c.toNat

/-- A text that starts past the ASCII characters starts with a foreign one. -/
theorem characters_foreign {b : UInt8} (hb : ¬ b < 0x80) (t : Text) :
    ∃ c cs, characters (Text.runes (b :: t)) = c :: cs ∧ isForeign c = true := by
  have hbytes := Text.bytes_firstRune b t
  rw [Text.runes_cons]
  cases hr : (Text.firstRune b t).1 with
  | stray x => exact ⟨unreadable, [], rfl, rfl⟩
  | scalar c =>
    rw [hr] at hbytes
    have hc := Text.lt_of_ofChar hbytes hb
    rw [characters]
    split
    · exact ⟨unreadable, [], rfl, rfl⟩
    · exact ⟨c, _, rfl, by simp [isForeign, hc]⟩

section Foreign

variable {c : Char} (hc : isForeign c = true) (cs : List Char)

include hc

theorem ne_of_isForeign {d : Char} (hd : isForeign d = false) : c ≠ d := by
  rintro rfl
  simp [hc] at hd

theorem isBareChar_of_isForeign : isBareChar c = false := by
  rcases Bool.or_eq_true_iff.1 hc with h | h
  · rw [beq_iff_eq.1 h]
    decide
  · have h : 128 ≤ c.val.toNat := of_decide_eq_true h
    have hle {n : UInt32} (hn : n.toNat < 128) : ¬ c.val ≤ n := fun hcn =>
      absurd (Nat.le_trans h (UInt32.le_iff_toNat_le.1 hcn)) (Nat.not_le.2 hn)
    have hupper : c.isUpper = false := decide_eq_false fun hu => hle (by decide) hu.2
    have hlower : c.isLower = false :=
      Bool.and_eq_false_imp.2 fun _ => decide_eq_false (hle (by decide))
    have hdigit : c.isDigit = false :=
      Bool.and_eq_false_imp.2 fun _ => decide_eq_false (hle (by decide))
    have hnum : c.isAlphanum = false :=
      Bool.or_eq_false_iff.2 ⟨Bool.or_eq_false_iff.2 ⟨hupper, hlower⟩, hdigit⟩
    simp [isBareChar, hnum, ne_of_isForeign hc (d := '_') rfl, ne_of_isForeign hc (d := '-') rfl]

theorem isBlank_of_isForeign : isBlank c = false := by
  simp [isBlank, ne_of_isForeign hc (d := ' ') rfl, ne_of_isForeign hc (d := '\t') rfl]

theorem isSpace_of_isForeign : isSpace c = false := by
  simp [isSpace, isNewline, isBlank_of_isForeign hc, ne_of_isForeign hc (d := '\n') rfl,
    ne_of_isForeign hc (d := '\r') rfl]

theorem keyPart_foreign : keyPart (c :: cs) = .error (unexpected (c :: cs)) := by
  simp [keyPart, isBareChar_of_isForeign hc, ne_of_isForeign hc (d := '"') rfl,
    ne_of_isForeign hc (d := '\'') rfl]

theorem key_foreign (fuel : Nat) : ∃ stop, key '=' fuel (c :: cs) = .error stop := by
  cases fuel with
  | zero => exact ⟨_, rfl⟩
  | succ fuel =>
    refine ⟨unexpected (c :: cs), ?_⟩
    simp [key, skipBlanks, isBlank_of_isForeign hc, ne_of_isForeign hc (d := '=') rfl,
      ne_of_isForeign hc (d := '.') rfl, keyPart_foreign hc]
    rfl

theorem line_foreign (fuel : Nat) : ∃ stop, line fuel (c :: cs) = (.broken stop, none) := by
  obtain ⟨stop, hs⟩ := key_foreign hc cs fuel
  have hl : line fuel (c :: cs) = defineLine fuel (c :: cs) := by
    unfold line
    split
    next h => exact absurd (List.cons.inj h).1 (ne_of_isForeign hc rfl)
    next h => exact absurd (List.cons.inj h).1 (ne_of_isForeign hc rfl)
    next => rfl
  exact ⟨stop, by rw [hl, defineLine, hs]⟩

/-- Nothing can be read of a text that starts with a foreign character. -/
theorem read_foreign : ∃ stop, read (c :: cs) = [.broken stop] := by
  obtain ⟨stop, hs⟩ := line_foreign hc cs (2 * (c :: cs).length)
  have hsp : skipSpace false (c :: cs) = c :: cs := by
    simp [skipSpace, isSpace_of_isForeign hc, ne_of_isForeign hc (d := '#') rfl]
  refine ⟨stop, ?_⟩
  rw [read, readLines, hsp]
  simp only [hs]

end Foreign

theorem parse_foreign {b : UInt8} (hb : 0x80 ≤ b.toNat) (hb' : b.toNat < 0xe0) (t : Text) :
    ∃ e, parse (b :: t) = .error e := by
  have hmark : dropMark (b :: t) = b :: t := by
    have hne {d : UInt8} (hd : 0xe0 ≤ d.toNat) : b ≠ d := by
      rintro rfl
      omega
    unfold dropMark
    split
    next h => exact absurd (List.cons.inj h).1 (hne (by decide))
    next h => exact absurd (List.cons.inj h).1 (hne (by decide))
    next h => exact absurd (List.cons.inj h).1 (hne (by decide))
    next => rfl
  have hlt : ¬ b < 0x80 := by
    rw [UInt8.lt_iff_toNat_lt]
    exact Nat.not_lt.2 hb
  obtain ⟨c, cs, hcs, hc⟩ := characters_foreign hlt t
  obtain ⟨stop, hs⟩ := read_foreign hc cs
  rw [parse, hmark]
  split
  · exact ⟨_, rfl⟩
  · simp only [hcs, hs]
    exact ⟨_, rfl⟩

end Toml

namespace Document

theorem ofToml_foreign {b : UInt8} (hb : 0x80 ≤ b.toNat) (hb' : b.toNat < 0xe0) (t : Text)
    {d : Document} : ofToml (b :: t) ≠ .ok d := by
  obtain ⟨e, he⟩ := Toml.parse_foreign hb hb' t
  simp [ofToml, he]

/-- A record starts with a head of one of the bytes that start no character. -/
theorem ofMessagePack_ok {t : Text} {d : Document} (h : ofMessagePack t = .ok d) :
    ∃ b u, t = b :: u ∧ 0x80 ≤ b.toNat ∧ b.toNat < 0xe0 := by
  have hint {v : Int} {rest : Text} : MessagePack.head t ≠ some (.integer v, rest) := by
    intro hv
    simp [ofMessagePack, packedRecord, hv] at h
  cases t with
  | nil => cases h
  | cons b u =>
    refine ⟨b, u, rfl, ?_, ?_⟩
    · by_contra hb
      exact hint (MessagePack.head_ascii u (by omega))
    · by_contra hb
      exact hint (MessagePack.head_negative u (by omega))

/-- **No text is a document in both formats.** -/
theorem decode_unique {f g : Format} {t : Text} {d e : Document} (hf : decode f t = .ok d)
    (hg : decode g t = .ok e) : d = e := by
  have hne {d e : Document} (ht : ofToml t = .ok d) (hm : ofMessagePack t = .ok e) : False := by
    obtain ⟨b, u, rfl, hb, hb'⟩ := ofMessagePack_ok hm
    exact ofToml_foreign hb hb' u ht
  cases f <;> cases g
  case toml.toml | msgpack.msgpack => exact Except.ok.inj (hf.symm.trans hg)
  case toml.msgpack => exact (hne hf hg).elim
  case msgpack.toml => exact (hne hg hf).elim

end Document

/-! ### Sizes of images -/

open Assembly Compilation

/-- Whatever a program is compiled with, the same emissions follow the bootstrap, and the same
fault stops them. -/
theorem compile_eq (p : Program) :
    ∃ (es : List Emission) (f : Option Fault), ∀ o : Options,
      (compile p o).listing = Listing.emitAll {} (prologue o.effective ++ es) ∧
        (compile p o).capacity = o.effective.capacity ∧ (compile p o).fault = f := by
  cases hc : Lowering.collect p {} with
  | mk data symbols result =>
    cases result with
    | error e =>
      refine ⟨data, some e, fun o => ?_⟩
      simp [compile, hc, Listing.emitAll_append]
    | ok u =>
      cases hf : firstFault (Lowering.generate symbols 0 (Program.functions p)) with
      | some e =>
        refine ⟨data ++ (Lowering.generate symbols 0 (Program.functions p)).flatMap
          Lowering.LoweredFunction.emissions, some e, fun o => ?_⟩
        simp [compile, hc, hf, addFunctions_fst, Listing.emitAll_append]
      | none =>
        refine ⟨data ++ (Lowering.generate symbols 0 (Program.functions p)).flatMap
          Lowering.LoweredFunction.emissions ++ epilogue, none, fun o => ?_⟩
        simp [compile, hc, hf, addFunctions_fst, Listing.emitAll_append]

theorem compile_fault_eq (p : Program) (o o' : Options) :
    (compile p o).fault = (compile p o').fault := by
  obtain ⟨es, f, h⟩ := compile_eq p
  rw [(h o).2.2, (h o').2.2]

/-- The bootstrap has the same number of words whatever the origin and the entry are. -/
theorem words_prologue (o : Options) (es : List Emission) :
    (Listing.emitAll {} (prologue o ++ es)).words = 7 + (wordsFrom none es).length := by
  have hw : (wordsFrom none (prologue o)).length = 7 := rfl
  have hp : waiting none (prologue o) = none := rfl
  rw [Listing.words_eq_length_image, Listing.image_emitAll, wordsFrom_append, hp]
  simp [Listing.image, hw]

/-- **The size of an image** depends on the program and on the capacity only. -/
theorem compile_stats_eq (p : Program) {o o' : Options} (h : o.capacity = o'.capacity) :
    (compile p o).stats = (compile p o').stats := by
  obtain ⟨es, f, hp⟩ := compile_eq p
  have hcap : o.effective.capacity = o'.effective.capacity := by simp [Options.effective, h]
  simp only [Compilation.stats, hp, words_prologue, hcap]

/-- Every listing starts with a remark. -/
theorem text_compile (p : Program) (o : Options) : ∃ t, (compile p o).text = 59 :: t := by
  obtain ⟨es, f, hp⟩ := compile_eq p
  rw [Compilation.text, (hp o).1, Listing.text, (Listing.lines_emitAll _ _).1]
  exact ⟨_, rfl⟩

end StumpGen
