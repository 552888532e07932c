import StumpGen.Diagnostic.Bag
import StumpGen.Proofs.TextParts
import Mathlib.Data.List.Induction
import Mathlib.Order.Nat

/-!
# Diagnostics that are taken for duplicates

Duplicates are recognised by a text that joins the code, the text of the place and the message with
colons.  A code can be read off this text.  But the text of a place leaves out a statement without
an element, shows a file alone like an element alone, and may hold colons like the message.  So
different findings may read the same, and then only the first one is left.

* `firstOccurrences` : the elements of a list that no element before them is the same as.
* `Diagnostic.ReadSame`, `Diagnostic.key_eq_iff` : **which diagnostics have the same key**.
* `Diagnostic.Legible.readSame_iff` : where files, elements and messages hold none of the marks that
  a key is made with, diagnostics read the same only if they are the same finding.
* `Bag.dedup_firstOccurrences` : **the first of the diagnostics that read the same is left**.
-/

namespace StumpGen

/-! ### First occurrences -/

section FirstOccurrences

variable {α : Type} {same same' : α → α → Prop} [DecidableRel same] [DecidableRel same']

/-- The elements of a list that no element before them is the same as, in their order. -/
def firstOccurrences (same : α → α → Prop) [DecidableRel same] (l : List α) : List α :=
  (l.zipIdx.filter fun p : α × Nat => decide (∀ x ∈ l.take p.2, ¬ same x p.1)).map Prod.fst

theorem firstOccurrences_concat (l : List α) (a : α) :
    firstOccurrences same (l ++ [a]) =
      firstOccurrences same l ++ if ∃ x ∈ l, same x a then [] else [a] := by
  -- what stands before an element of `l` does not depend on `a`
  have hbefore :
      l.zipIdx.filter (fun p : α × Nat => decide (∀ x ∈ (l ++ [a]).take p.2, ¬ same x p.1)) =
      l.zipIdx.filter (fun p : α × Nat => decide (∀ x ∈ l.take p.2, ¬ same x p.1)) := by
    refine List.filter_congr fun p hp => ?_
    have hlt : p.2 < l.length := by simpa using List.snd_lt_of_mem_zipIdx hp
    rw [List.take_append_of_le_length hlt.le]
  rw [firstOccurrences, List.zipIdx_append, List.filter_append, hbefore, List.map_append,
    firstOccurrences]
  congr 1
  by_cases h : ∃ x ∈ l, same x a
  · simp [h]
  · rw [Nat.zero_add, List.zipIdx_singleton, List.filter_cons_of_pos (by simpa using h)]
    simp [h]

theorem firstOccurrences_sublist (l : List α) : (firstOccurrences same l).Sublist l := by
  have h : (l.zipIdx.map Prod.fst).Sublist l := by simp
  exact (List.filter_sublist.map Prod.fst).trans h

/-- Elements that are kept differ. -/
theorem pairwise_firstOccurrences (l : List α) :
    (firstOccurrences same l).Pairwise fun x y => ¬ same x y := by
  induction l using List.reverseRecOn with
  | nil => exact .nil
  | append_singleton l a ih =>
    rw [firstOccurrences_concat]
    split
    · simpa using ih
    · rename_i h
      rw [List.pairwise_append]
      refine ⟨ih, List.pairwise_singleton _ _, fun x hx y hy hs => h ⟨x, ?_, ?_⟩⟩
      · exact (firstOccurrences_sublist l).mem hx
      · rwa [← List.mem_singleton.1 hy]

theorem firstOccurrences_congr {l : List α}
    (h : ∀ x ∈ l, ∀ y ∈ l, same x y ↔ same' x y) :
    firstOccurrences same l = firstOccurrences same' l := by
  rw [firstOccurrences, firstOccurrences]
  congr 1
  refine List.filter_congr fun p hp => ?_
  have hp' : p.1 ∈ l := List.fst_mem_of_mem_zipIdx hp
  refine decide_eq_decide.2 (forall₂_congr fun x hx => not_congr ?_)
  exact h x (List.mem_of_mem_take hx) p.1 hp'

end FirstOccurrences

/-! ### Codes -/

namespace Code

theorem length_letter (s : Severity) : s.letter.length = 1 := by
  rw [Severity.letter]
  split_ifs <;> rfl

theorem id_injective : Function.Injective Code.id := by
  intro c c' h
  obtain ⟨-, hdigits⟩ := List.append_inj h (by simp only [length_letter])
  have hnumber : c.number.toNat = c'.number.toNat := by simpa using congrArg Text.decimal hdigits
  cases c
  cases c'
  exact congrArg Code.mk (UInt16.toNat_inj.1 hnumber)

theorem colon_notMem_id (c : Code) : (58 : UInt8) ∉ c.id := by
  intro h
  rcases List.mem_append.1 h with h | h
  · revert h
    rw [Severity.letter]
    split_ifs <;> decide
  · rcases Text.padZeros_bytes h with h | h
    · exact absurd h (by decide)
    · exact absurd (Text.isDigit_of_mem_ofNat h) (by decide)

end Code

/-! ### Places -/

namespace Location

/-- A place whose text shows all its parts: the file has a dot in its name and no colon, the name of
the element has neither, nor the mark of a number, and there is no statement without an element. -/
@[mk_iff]
structure Legible (l : Location) : Prop where
  /-- A file can be told from an element. -/
  dot : l.file = [] ∨ 46 ∈ l.file
  /-- The end of the file can be told. -/
  file : 58 ∉ l.file
  /-- The name of the element holds no dot, colon or number sign. -/
  element : 46 ∉ l.element ∧ 58 ∉ l.element ∧ 35 ∉ l.element
  /-- Statements are counted from one. -/
  statement : 0 ≤ l.statement
  /-- A statement belongs to an element. -/
  placed : l.element = [] → l.statement = 0

instance : DecidablePred Legible := fun l => decidable_of_iff _ (legible_iff l).symm

variable {l l' : Location}

theorem elementText_bytes {x : UInt8} (hx : x ∈ l.elementText) :
    x ∈ l.element ∨ x = 35 ∨ x ∈ Text.ofInt l.statement := by
  rw [elementText] at hx
  split at hx
  · rw [List.mem_append, List.mem_append, or_assoc] at hx
    exact hx.imp_right (Or.imp_left List.mem_singleton.1)
  · exact .inl hx

theorem text_of_element_nil (h : l.element = []) : l.text = l.file := by
  simp [text, h]

theorem text_of_file_nil (h : l.element ≠ []) (hf : l.file = []) : l.text = l.elementText := by
  simp [text, h, hf]

theorem text_of_file (h : l.element ≠ []) (hf : l.file ≠ []) :
    l.text = l.file ++ 58 :: 32 :: l.elementText := by
  simp only [text, List.isEmpty_iff, h, hf, if_false, List.append_assoc]
  rfl

namespace Legible

theorem notMem_elementText (h : l.Legible) : 46 ∉ l.elementText ∧ 58 ∉ l.elementText := by
  have hnumber {x : UInt8} (hx : Text.isDigit x = false) (hm : x ≠ 45) :
      x ∉ Text.ofInt l.statement := Text.notMem_ofInt hx hm _
  constructor
  · intro hx
    rcases elementText_bytes hx with hx | hx | hx
    · exact h.element.1 hx
    · exact absurd hx (by decide)
    · exact hnumber (by decide) (by decide) hx
  · intro hx
    rcases elementText_bytes hx with hx | hx | hx
    · exact h.element.2.1 hx
    · exact absurd hx (by decide)
    · exact hnumber (by decide) (by decide) hx

/-- Element and statement can be read off their text. -/
theorem elementText_inj (h : l.Legible) (h' : l'.Legible) (he : l.elementText = l'.elementText) :
    l.element = l'.element ∧ l.statement = l'.statement := by
  have hsign {l : Location} (hpos : 0 < l.statement) :
      l.elementText = l.element ++ 35 :: Text.ofInt l.statement := by
    simp only [elementText, if_pos hpos, List.append_assoc]
    rfl
  have hplain {l : Location} (hpos : ¬ 0 < l.statement) : l.elementText = l.element := by
    rw [elementText, if_neg hpos]
  by_cases hpos : 0 < l.statement
  · by_cases hpos' : 0 < l'.statement
    · rw [hsign hpos, hsign hpos'] at he
      obtain ⟨helement, hnumber⟩ := Text.append_cons_inj h.element.2.2 h'.element.2.2 he
      exact ⟨helement, Text.ofInt_injective hnumber⟩
    · rw [hsign hpos, hplain hpos'] at he
      exact absurd (by simp [← he]) h'.element.2.2
  · by_cases hpos' : 0 < l'.statement
    · rw [hplain hpos, hsign hpos'] at he
      exact absurd (by simp [he]) h.element.2.2
    · rw [hplain hpos, hplain hpos'] at he
      have hzero := h.statement
      have hzero' := h'.statement
      exact ⟨he, by omega⟩

/-- Only a place with a file and an element has a colon in its text. -/
theorem colon_mem_text (h : l.Legible) (hx : 58 ∈ l.text) : l.element ≠ [] ∧ l.file ≠ [] := by
  by_cases he : l.element = []
  · rw [text_of_element_nil he] at hx
    exact absurd hx h.file
  · by_cases hf : l.file = []
    · rw [text_of_file_nil he hf] at hx
      exact absurd hx h.notMem_elementText.2
    · exact ⟨he, hf⟩

/-- A text with a dot and no colon is that of a file. -/
theorem text_of_dot (h : l.Legible) (hcolon : 58 ∉ l.text) (hdot : 46 ∈ l.text) :
    l.element = [] ∧ l.text = l.file := by
  by_cases he : l.element = []
  · exact ⟨he, text_of_element_nil he⟩
  · by_cases hf : l.file = []
    · rw [text_of_file_nil he hf] at hdot
      exact absurd hdot h.notMem_elementText.1
    · exact absurd (by simp [text_of_file he hf]) hcolon

/-- A text with neither is that of an element, or there is none. -/
theorem text_of_no_dot (h : l.Legible) (hcolon : 58 ∉ l.text) (hdot : 46 ∉ l.text) :
    l.file = [] ∧ l.text = l.elementText := by
  by_cases he : l.element = []
  · rw [text_of_element_nil he] at hdot ⊢
    have hf : l.file = [] := h.dot.resolve_right hdot
    exact ⟨hf, by simp [hf, elementText, he, h.placed he]⟩
  · by_cases hf : l.file = []
    · exact ⟨hf, text_of_file_nil he hf⟩
    · exact absurd (by simp [text_of_file he hf]) hcolon

/-- **Legible places** are told apart by their texts. -/
theorem text_inj (h : l.Legible) (h' : l'.Legible) (ht : l.text = l'.text) : l = l' := by
  have ext (hfile : l.file = l'.file)
      (hrest : l.element = l'.element ∧ l.statement = l'.statement) : l = l' := by
    cases l
    cases l'
    simp_all
  by_cases hcolon : 58 ∈ l.text
  · -- file and element
    obtain ⟨he, hf⟩ := h.colon_mem_text hcolon
    obtain ⟨he', hf'⟩ := h'.colon_mem_text (ht ▸ hcolon)
    rw [text_of_file he hf, text_of_file he' hf'] at ht
    obtain ⟨hfile, hrest⟩ := Text.append_cons_inj h.file h'.file ht
    exact ext hfile (h.elementText_inj h' (List.cons.inj hrest).2)
  · by_cases hdot : 46 ∈ l.text
    · -- a file alone
      obtain ⟨he, hfile⟩ := h.text_of_dot hcolon hdot
      obtain ⟨he', hfile'⟩ := h'.text_of_dot (ht ▸ hcolon) (ht ▸ hdot)
      exact ext (by rw [← hfile, ← hfile', ht])
        ⟨he.trans he'.symm, (h.placed he).trans (h'.placed he').symm⟩
    · -- an element alone, or nothing
      obtain ⟨hf, he⟩ := h.text_of_no_dot hcolon hdot
      obtain ⟨hf', he'⟩ := h'.text_of_no_dot (ht ▸ hcolon) (ht ▸ hdot)
      exact ext (hf.trans hf'.symm) (h.elementText_inj h' (by rw [← he, ← he', ht]))

end Legible

end Location

/-! ### Diagnostics that read the same -/

namespace Diagnostic

/-- The same code, place and message. -/
def SameFinding (d e : Diagnostic) : Prop :=
  d.code = e.code ∧ d.location = e.location ∧ d.message = e.message

instance : DecidableRel SameFinding := fun _ _ => inferInstanceAs (Decidable (_ ∧ _ ∧ _))

/-- The text of the place goes further than that of another diagnostic, past a colon, and the
message of the other starts earlier by as much. -/
def Shifted (d e : Diagnostic) : Prop :=
  ∃ m, d.location.text = e.location.text ++ 58 :: m ∧ e.message = m ++ 58 :: d.message

/-- The same code, and the same text of place and message, with the same border between them or
with another one. -/
def ReadSame (d e : Diagnostic) : Prop :=
  d.code = e.code ∧
    (d.location.text = e.location.text ∧ d.message = e.message ∨ Shifted d e ∨ Shifted e d)

/-- A diagnostic whose text shows where the message starts. -/
@[mk_iff]
structure Legible (d : Diagnostic) : Prop where
  /-- The place can be read off its text. -/
  location : d.location.Legible
  /-- The message does not start with a blank. -/
  message : d.message.head? ≠ some 32

instance : DecidablePred Legible := fun d => decidable_of_iff _ (legible_iff d).symm

variable {d e : Diagnostic}

theorem key_eq (d : Diagnostic) :
    Bag.key d = d.code.id ++ 58 :: (d.location.text ++ 58 :: d.message) := by
  simp only [Bag.key, List.append_assoc]
  rfl

/-- **Diagnostics have the same key** exactly if they read the same. -/
theorem key_eq_iff : Bag.key d = Bag.key e ↔ ReadSame d e := by
  have htext : d.location.text ++ 58 :: d.message = e.location.text ++ 58 :: e.message ↔
      d.location.text = e.location.text ∧ d.message = e.message ∨ Shifted d e ∨ Shifted e d :=
    Text.append_separator_eq_iff (x := 58) (s := []) List.not_mem_nil
  rw [key_eq, key_eq, ReadSame, ← htext]
  constructor
  · intro h
    obtain ⟨hid, h⟩ := Text.append_cons_inj (Code.colon_notMem_id _) (Code.colon_notMem_id _) h
    exact ⟨Code.id_injective hid, h⟩
  · rintro ⟨hcode, h⟩
    rw [hcode, h]

instance : DecidableRel ReadSame := fun _ _ => decidable_of_iff _ key_eq_iff

theorem SameFinding.readSame (h : SameFinding d e) : ReadSame d e :=
  ⟨h.1, .inl ⟨by rw [h.2.1], h.2.2⟩⟩

/-- The place of a legible diagnostic does not go into the message of another one. -/
theorem Legible.not_shifted (hd : d.Legible) (he : e.Legible) : ¬ Shifted d e := by
  rintro ⟨m, hplace, hmessage⟩
  obtain ⟨helement, hfile⟩ := hd.location.colon_mem_text (by simp [hplace])
  rw [Location.text_of_file helement hfile] at hplace
  by_cases hcolon : 58 ∈ e.location.text
  · -- the text of the place would hold two colons
    obtain ⟨helement', hfile'⟩ := he.location.colon_mem_text hcolon
    rw [Location.text_of_file helement' hfile', List.append_assoc, List.cons_append] at hplace
    obtain ⟨-, hrest⟩ := Text.append_cons_inj hd.location.file he.location.file hplace
    have : 58 ∈ d.location.elementText := by
      rw [(List.cons.inj hrest).2]
      simp
    exact hd.location.notMem_elementText.2 this
  · obtain ⟨-, rfl⟩ := Text.append_cons_inj hd.location.file hcolon hplace
    exact he.message (by simp [hmessage])

/-- **Legible diagnostics** read the same only if they are the same finding. -/
theorem Legible.readSame_iff (hd : d.Legible) (he : e.Legible) :
    ReadSame d e ↔ SameFinding d e := by
  refine ⟨?_, SameFinding.readSame⟩
  rintro ⟨hcode, ⟨hplace, hm⟩ | h | h⟩
  · exact ⟨hcode, hd.location.text_inj he.location hplace, hm⟩
  · exact absurd h (hd.not_shifted he)
  · exact absurd h (he.not_shifted hd)

end Diagnostic

namespace Bag

open Diagnostic

theorem firsts_concat (seen : List Text) (ds : List Diagnostic) (d : Diagnostic) :
    firsts seen (ds ++ [d]) =
      firsts seen ds ++ if key d ∈ seen ∨ ∃ x ∈ ds, ReadSame x d then [] else [d] := by
  induction ds generalizing seen with
  | nil => simp [firsts]
  | cons e ds ih =>
    rw [List.cons_append, firsts, firsts]
    by_cases he : key e ∈ seen
    · have hsame : (key d ∈ seen ∨ ∃ x ∈ e :: ds, ReadSame x d) ↔
          key d ∈ seen ∨ ∃ x ∈ ds, ReadSame x d := by
        rw [List.exists_mem_cons_iff, ← key_eq_iff, ← or_assoc]
        exact or_congr_left (or_iff_left_of_imp fun h => h ▸ he)
      rw [if_pos (by simpa using he), if_pos (by simpa using he), ih]
      simp only [hsame]
    · have hsame : (key d ∈ key e :: seen ∨ ∃ x ∈ ds, ReadSame x d) ↔
          key d ∈ seen ∨ ∃ x ∈ e :: ds, ReadSame x d := by
        rw [List.mem_cons, List.exists_mem_cons_iff, ← key_eq_iff, eq_comm, or_assoc,
          or_left_comm]
      rw [if_neg (by simpa using he), if_neg (by simpa using he), ih, List.cons_append]
      simp only [hsame]

/-- Of the diagnostics that read the same the first one is kept. -/
theorem items_dedup (b : Bag) : b.dedup.items = firstOccurrences ReadSame b.items := by
  change firsts [] b.items = _
  induction b.items using List.reverseRecOn with
  | nil => rfl
  | append_singleton ds d ih =>
    rw [firsts_concat, firstOccurrences_concat, ih]
    simp

/-- **What is left without duplicates.**  Of the diagnostics that read the same the first one is
kept.  So no two of those that are left are the same finding; but one that differs from all before
it may be lost, unless all are legible. -/
theorem dedup_firstOccurrences (b : Bag) :
    b.dedup.items = firstOccurrences ReadSame b.items ∧
    (b.dedup.items.Pairwise fun d e => ¬ SameFinding d e) ∧
    ((∀ d ∈ b.items, d.Legible) → b.dedup.items = firstOccurrences SameFinding b.items) := by
  refine ⟨b.items_dedup, ?_, fun h => ?_⟩
  · rw [items_dedup]
    exact (pairwise_firstOccurrences b.items).imp fun hne hsame => hne hsame.readSame
  · rw [items_dedup]
    exact firstOccurrences_congr fun d hd e he => (h d hd).readSame_iff (h e he)

/-- A finding about a file, and the same about a function of that name. -/
def namesakes : List Diagnostic :=
  [.warning .entryNotFound { file := "main" } "not found",
   .warning .entryNotFound { element := "main" } "not found"]

/-- A finding that comes again after one about another statement. -/
def repeated : List Diagnostic :=
  [.warning .unknownIdentifier { file := "a.toml", element := "main", statement := 1 } "late",
   .warning .unknownIdentifier { file := "a.toml", element := "main", statement := 2 } "late",
   .warning .unknownIdentifier { file := "a.toml", element := "main", statement := 1 } "late"]

/-- One of two findings is lost; a finding that comes again is taken out. -/
theorem dedup_firstOccurrences_namesakes :
    (namesakes.Pairwise fun d e => ¬ SameFinding d e) ∧
      (dedup { items := namesakes, limit := 10 }).items = namesakes.take 1 ∧
      (∀ d ∈ repeated, d.Legible) ∧
      (dedup { items := repeated, limit := 10 }).items = repeated.take 2 := by
  have hlegible : ∀ d ∈ repeated, d.Legible := by decide
  refine ⟨by decide, ?_, hlegible, ?_⟩
  · rw [(dedup_firstOccurrences _).1]
    decide
  · rw [(dedup_firstOccurrences { items := repeated, limit := 10 }).2.2 hlegible]
    decide

end Bag

end StumpGen
