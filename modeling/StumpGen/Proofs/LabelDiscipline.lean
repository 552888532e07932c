import StumpGen.Proofs.Reading

/-!
# Labels in listings

A listing keeps one label that waits for its word.  This file says what its text looks like
without that state, from the emissions alone.

* `labelBehind past` : the label that waits behind some emissions is the last one since the last
  word.
* `padded past es` : a `nop` is put in front of each label that would replace another one.
* `written past es` : the lines of padded emissions; labels write none, and a word stands behind the
  label that waits for it.

**Main theorem** (`split_text_emitAll`): the lines of a listing's text are those of the padded
emissions, with the label that still waits alone at the end.  The words are counted, and every label
stands once in the text, in the order of the emissions.
-/

namespace StumpGen

namespace Assembly

/-! ### Emissions without a state -/

namespace Emission

/-- The word of an emission that is one. -/
def word? : Emission → Option Instruction
  | .code i => some i
  | _ => none

/-- The line of an emission that is neither a word nor a label. -/
def remark? : Emission → Option Line
  | .comment t => some (.comment t)
  | .blank => some .blank
  | .origin t => some (.origin t)
  | _ => none

/-- The line of an emission if `label` waits. -/
def line? (label : Option Text) : Emission → Option Line
  | .code i => some (.code label i)
  | e => e.remark?

end Emission

/-- The label that waits behind emissions: the last one since the last word. -/
def labelBehind (past : List Emission) : Option Text :=
  (past.reverse.takeWhile fun e => e.word?.isNone).findSome? Emission.name?

/-- What is put in front of an emission behind `past`: a `nop`, if it is a label that comes while
another one waits. -/
def inserted (past : List Emission) (e : Emission) : List Emission :=
  if e.name?.isSome && (labelBehind past).isSome then [.code .nop] else []

/-- The emissions `es` that follow `past`, and what is inserted between them. -/
def padded (past : List Emission) : List Emission → List Emission
  | [] => []
  | e :: es => inserted past e ++ e :: padded (past ++ [e]) es

/-- The lines of the emissions `es` that follow `past`. -/
def written (past : List Emission) : List Emission → List Line
  | [] => []
  | e :: es => (e.line? (labelBehind past)).toList ++ written (past ++ [e]) es

theorem labelBehind_concat (past : List Emission) (e : Emission) :
    labelBehind (past ++ [e]) =
      if e.word?.isSome then none else e.name?.or (labelBehind past) := by
  rw [labelBehind, List.reverse_concat, List.takeWhile_cons]
  cases e.word? with
  | some i => rfl
  | none =>
    simp only [Option.isNone_none, if_true, List.findSome?_cons]
    cases e.name? <;> rfl

theorem labelBehind_label (past : List Emission) {n : Text} (hn : n ≠ []) :
    labelBehind (past ++ [.label n]) = some n := by
  simp [labelBehind_concat, Emission.word?, Emission.name?, hn]

theorem mem_of_labelBehind {past : List Emission} {n : Text} (h : labelBehind past = some n) :
    .label n ∈ past := by
  obtain ⟨e, he, hn⟩ := List.exists_of_findSome?_eq_some h
  have hmem : e ∈ past := List.mem_reverse.1 (List.takeWhile_sublist _ |>.mem he)
  cases e with
  | label m =>
    by_cases hm : m.isEmpty <;> simp only [Emission.name?, hm, if_true] at hn
    · cases hn
    · obtain rfl := Option.some.inj hn
      exact hmem
  | _ => cases hn

/-! ### Texts on one line -/

/-- The texts in an operation that are not fixed. -/
def Operation.texts : Operation → List Text
  | .other m => [m]
  | _ => []

namespace Instruction

/-- The texts in an instruction that are not fixed. -/
def texts : Instruction → List Text
  | .dataLabel l => [l]
  | .aluReg op .. => op.texts
  | .aluImm op .. => op.texts
  | .movLabel _ l => [l]
  | .loadLabel _ l => [l]
  | .storeLabel _ l => [l]
  | .branch c l => [c, l]
  | _ => []

end Instruction

/-- The texts in an emission. -/
def Emission.texts : Emission → List Text
  | .label n => [n]
  | .code i => i.texts
  | .comment t => [t]
  | .blank => []
  | .origin t => [t]

/-- Every label has a name, and no text has a line feed. -/
structure Emission.IsProper (e : Emission) : Prop where
  named : e ≠ .label []
  oneLine : ∀ t ∈ e.texts, (10 : UInt8) ∉ t

theorem newline_notMem_name (r : Reg) : (10 : UInt8) ∉ r.name := by
  cases r with
  | other i =>
    intro h
    rcases List.mem_append.1 h with h | h
    · exact absurd h (by decide)
    · exact Text.newline_notMem_ofInt i.toNat h
  | _ => decide

theorem newline_notMem_shift (s : Shift) : (10 : UInt8) ∉ s.text := by
  cases s <;> decide

theorem newline_notMem_flagMark (s : Bool) : (10 : UInt8) ∉ Instruction.flagMark s := by
  cases s <;> decide

theorem newline_notMem_mnemonic {op : Operation} (h : ∀ t ∈ op.texts, (10 : UInt8) ∉ t) :
    (10 : UInt8) ∉ op.mnemonic := by
  cases op with
  | other m => exact h m List.mem_cons_self
  | _ => decide

theorem newline_notMem_address (a : Address) : (10 : UInt8) ∉ a.text := by
  obtain ⟨b, o, s⟩ := a
  cases o <;>
    simp +decide [Address.text, newline_notMem_name, newline_notMem_shift,
      Text.newline_notMem_ofInt]

theorem newline_notMem_text {i : Instruction} (h : ∀ t ∈ i.texts, (10 : UInt8) ∉ t) :
    (10 : UInt8) ∉ i.text := by
  cases i with
  | aluReg op s d a b sh =>
    have hop := newline_notMem_mnemonic h
    simp +decide [Instruction.text, newline_notMem_name, newline_notMem_shift,
      newline_notMem_flagMark, hop]
  | aluImm op s d a v =>
    have hop := newline_notMem_mnemonic h
    simp +decide [Instruction.text, newline_notMem_name, Text.newline_notMem_ofInt,
      newline_notMem_flagMark, hop]
  | branch c l =>
    have hc := h c (by simp [Instruction.texts])
    have hl := h l (by simp [Instruction.texts])
    simp +decide [Instruction.text, hc, hl]
  | dataLabel l | movLabel d l | loadLabel d l | storeLabel v l =>
    have hl := h l List.mem_cons_self
    simp +decide [Instruction.text, newline_notMem_name, hl]
  | _ =>
    simp +decide [Instruction.text, newline_notMem_name, newline_notMem_shift,
      Text.newline_notMem_ofInt, newline_notMem_flagMark, newline_notMem_address]

theorem newline_notMem_line {e : Emission} (he : e.IsProper) {label : Option Text}
    (hl : ∀ n, label = some n → (10 : UInt8) ∉ n) {l : Line} (h : e.line? label = some l) :
    (10 : UInt8) ∉ l.body := by
  cases e with
  | label n => cases h
  | code i =>
    obtain rfl := Option.some.inj h
    have hi := newline_notMem_text he.oneLine
    cases label with
    | none => exact hi
    | some n =>
      have hn := hl n rfl
      simp +decide [Line.body, hi, hn]
  | blank =>
    obtain rfl := Option.some.inj h
    exact List.not_mem_nil
  | comment t | origin t =>
    obtain rfl := Option.some.inj h
    have ht := he.oneLine t List.mem_cons_self
    simp +decide [Line.body, ht]

theorem newline_notMem_written {past es : List Emission} (h : ∀ e ∈ past ++ es, e.IsProper) :
    ∀ l ∈ written past es, (10 : UInt8) ∉ l.body := by
  induction es generalizing past with
  | nil => simp [written]
  | cons e es ih =>
    have hlabel : ∀ n, labelBehind past = some n → (10 : UInt8) ∉ n := by
      intro n hn
      exact (h _ (List.mem_append_left _ (mem_of_labelBehind hn))).oneLine n List.mem_cons_self
    intro l hl
    rcases List.mem_append.1 hl with hl | hl
    · exact newline_notMem_line (h e (by simp)) hlabel (by simpa using hl)
    · exact ih (by simpa using h) l hl

/-! ### Padding -/

theorem mem_inserted {past : List Emission} {x e : Emission} (h : x ∈ inserted past e) :
    x = .code .nop := by
  unfold inserted at h
  split at h
  · exact List.mem_singleton.1 h
  · cases h

theorem isProper_padded {es : List Emission} (h : ∀ e ∈ es, e.IsProper) (past : List Emission) :
    ∀ e ∈ padded past es, e.IsProper := by
  induction es generalizing past with
  | nil => simp [padded]
  | cons e es ih =>
    intro x hx
    rcases List.mem_append.1 hx with hx | hx
    · rw [mem_inserted hx]
      exact ⟨by simp, by simp [Emission.texts, Instruction.texts]⟩
    rcases List.mem_cons.1 hx with rfl | hx
    · exact h x List.mem_cons_self
    · exact ih (fun y hy => h y (List.mem_cons_of_mem e hy)) _ x hx

/-- Padding adds no remark. -/
theorem remarks_padded (past es : List Emission) :
    (padded past es).filterMap Emission.remark? = es.filterMap Emission.remark? := by
  induction es generalizing past with
  | nil => rfl
  | cons e es ih =>
    have hpad : (inserted past e).filterMap Emission.remark? = [] := by
      rw [List.filterMap_eq_nil_iff]
      intro x hx
      rw [mem_inserted hx]
      rfl
    rw [padded, List.filterMap_append, hpad, List.nil_append, List.filterMap_cons, ih,
      List.filterMap_cons]

theorem written_append (past es fs : List Emission) :
    written past (es ++ fs) = written past es ++ written (past ++ es) fs := by
  induction es generalizing past with
  | nil => simp [written]
  | cons e es ih => simp [written, ih]

/-- The lines that are no words are those of the remarks. -/
theorem remarks_written (past es : List Emission) :
    (written past es).filter (fun l => !l.isCode) = es.filterMap Emission.remark? := by
  induction es generalizing past with
  | nil => rfl
  | cons e es ih =>
    rw [written, List.filter_append, ih]
    cases e <;> rfl

/-- The lines that are words are those of the words. -/
theorem words_written (past es : List Emission) :
    ((written past es).filterMap Line.word?).map Prod.snd = es.filterMap Emission.word? := by
  induction es generalizing past with
  | nil => rfl
  | cons e es ih =>
    rw [written, List.filterMap_append, List.map_append, ih]
    cases e <;> rfl

/-! ### The state of a listing -/

section Step

variable {past q : List Emission} {e : Emission}

/-- One emission: the label that waits afterwards. -/
theorem waiting_labelBehind (he : e ≠ .label []) :
    waiting (labelBehind past) [e] = labelBehind (past ++ [e]) := by
  cases e with
  | label n =>
    have hn : n ≠ [] := by rintro rfl; exact he rfl
    simp [waiting, labelBehind_label past hn, hn]
  | _ => simp [waiting, labelBehind_concat, Emission.word?, Emission.name?]

/-- One emission: what is inserted does not change which label waits afterwards. -/
theorem labelBehind_inserted (hq : labelBehind q = labelBehind past) :
    labelBehind (q ++ (inserted past e ++ [e])) = labelBehind (past ++ [e]) := by
  rw [← List.append_assoc, labelBehind_concat, labelBehind_concat]
  cases hn : e.name? with
  | some n => simp
  | none => simp [inserted, hn, hq]

/-- One emission: the lines that it adds. -/
theorem written_inserted (he : e ≠ .label []) (hq : labelBehind q = labelBehind past) :
    written q (inserted past e ++ [e]) = linesFrom (labelBehind past) [e] := by
  cases e with
  | label n =>
    have hn : n ≠ [] := by rintro rfl; exact he rfl
    cases hp : labelBehind past <;>
      simp [inserted, written, linesFrom, Emission.line?, Emission.remark?, Emission.name?, hn, hp,
        hq]
  | _ =>
    simp [inserted, written, linesFrom, Emission.line?, Emission.remark?, Emission.name?, hq]

end Step

section Run

variable {es : List Emission} (h : ∀ e ∈ es, e ≠ .label [])

include h

/-- A run of emissions: the lines are those of the padded emissions. -/
theorem written_padded {past q : List Emission} (hq : labelBehind q = labelBehind past) :
    written q (padded past es) = linesFrom (labelBehind past) es := by
  induction es generalizing past q with
  | nil => rfl
  | cons e es ih =>
    have he : e ≠ .label [] := h e List.mem_cons_self
    have hes : ∀ x ∈ es, x ≠ .label [] := fun x hx => h x (List.mem_cons_of_mem e hx)
    calc written q (padded past (e :: es))
        = written q (inserted past e ++ [e])
            ++ written (q ++ (inserted past e ++ [e])) (padded (past ++ [e]) es) := by
          rw [← written_append, padded, List.append_assoc, List.singleton_append]
      _ = linesFrom (labelBehind past) [e] ++ linesFrom (labelBehind (past ++ [e])) es := by
          rw [written_inserted he hq, ih hes (labelBehind_inserted hq)]
      _ = linesFrom (labelBehind past) (e :: es) := by
          rw [← waiting_labelBehind he, ← linesFrom_append, List.singleton_append]

/-- A run of emissions: the label that waits afterwards. -/
theorem waiting_eq_labelBehind (past : List Emission) :
    waiting (labelBehind past) es = labelBehind (past ++ es) := by
  induction es generalizing past with
  | nil => simp [waiting]
  | cons e es ih =>
    have he : e ≠ .label [] := h e List.mem_cons_self
    rw [← List.singleton_append, waiting_append, waiting_labelBehind he,
      ih (fun x hx => h x (List.mem_cons_of_mem e hx)), List.append_assoc]

end Run

/-- **Labels in listings.**  Let `ls` be the lines of the padded emissions.  They are the lines of
the text, and the label that still waits, the last one since the last word, stands alone behind
them.  Without the lines of the remarks they are the words of the padded emissions, as many as the
listing counts, and their labels with the waiting one are all labels, in order. -/
theorem split_text_emitAll {es : List Emission} (h : ∀ e ∈ es, e.IsProper) :
    let l := Listing.emitAll {} es
    let ls := written [] (padded [] es)
    Text.split 10 l.text = ls.map Line.body ++ [l.pending.getD []] ∧
    l.pending = labelBehind es ∧
    ls.filter (fun l => !l.isCode) = es.filterMap Emission.remark? ∧
    (ls.filterMap Line.word?).map Prod.snd = (padded [] es).filterMap Emission.word? ∧
    (ls.filterMap Line.word?).length = l.words ∧
    (ls.filterMap Line.word?).filterMap Prod.fst ++ l.pending.toList =
      es.filterMap Emission.name? := by
  intro l ls
  have hnamed : ∀ e ∈ es, e ≠ .label [] := fun e he => (h e he).named
  have hwritten : written [] (padded [] es) = linesFrom none es := written_padded hnamed rfl
  have hlines : l.lines.toList = ls := (Listing.lines_emitAll {} es).1.trans hwritten.symm
  have hpending : l.pending = labelBehind es :=
    (Listing.lines_emitAll {} es).2.trans (waiting_eq_labelBehind hnamed [])
  have hbodies : ∀ x ∈ ls, (10 : UInt8) ∉ x.body := newline_notMem_written (isProper_padded h [])
  have hlast : (10 : UInt8) ∉ l.pending.getD [] := by
    cases hp : l.pending with
    | none => exact List.not_mem_nil
    | some n => exact (h _ (mem_of_labelBehind (hpending ▸ hp))).oneLine n List.mem_cons_self
  refine ⟨?_, hpending, ?_, words_written [] _, ?_, ?_⟩
  · rw [Listing.text, hlines, Line.split_texts hbodies hlast]
  · rw [remarks_written, remarks_padded]
  · rw [← hlines]
    exact (Listing.words_eq_length_image l).symm
  · rw [← hlines, (Listing.lines_emitAll {} es).1, (Listing.lines_emitAll {} es).2]
    exact labels_wordsFrom none es

/-- Emissions with labels on top of each other, remarks between labels and words, and a label at the
end. -/
def stacked : List Emission :=
  [.label "a", .comment "first", .label "b", .blank, .code (.data 7), .code (.jump "a"), .label "c",
    .origin "16", .label "d", .label "e", .code (.aluImm (.other "xor") true .r1 .r2 (-3)),
    .comment "last", .label "f"]

theorem split_text_emitAll_stacked :
    (∀ e ∈ stacked, e.IsProper) ∧
    Text.split 10 (Listing.emitAll {} stacked).text =
      ["; first", "a nop", "", "b DEFW 7", "bal a", "org 16", "c nop", "d nop",
        "e xors r1, r2, #-3", "; last", "f"] ∧
    (Listing.emitAll {} stacked).words = 6 ∧ (Listing.emitAll {} stacked).pending = some "f" := by
  have hproper : ∀ e ∈ stacked, e.IsProper := by
    have h : ∀ e ∈ stacked, e ≠ .label [] ∧ ∀ t ∈ e.texts, (10 : UInt8) ∉ t := by decide
    exact fun e he => ⟨(h e he).1, (h e he).2⟩
  obtain ⟨hlines, hpending, -, -, hwords, -⟩ := split_text_emitAll hproper
  refine ⟨hproper, hlines.trans ?_, hwords.symm.trans ?_, hpending.trans ?_⟩ <;> decide

end Assembly

end StumpGen
