import StumpGen.Assembly.Audit
import StumpGen.Program
import StumpGen.Proofs.Emission
import StumpGen.Proofs.Label
import StumpGen.Proofs.PlainText

/-!
# How an audit reads the lines of a listing

An audit knows nothing of emissions: it splits a text into lines and words.  This file says what it
finds in the lines of a listing whose words are well formed.

* `Instruction.Readable`, `Line.Readable` : the audit finds the words of the line again, and no
  operand breaks a rule.
* `Audit.Clean` : the rules, for the words of an image: every word is an instruction that exists,
  and no two words have the same label.
* `Audit.Noted` : what an audit knows after it has read some words, and `Audit.Noted.steps` : it
  still knows it after more lines.
-/

namespace StumpGen

namespace Assembly

/-! ### The words of a line -/

namespace Instruction

/-- The first word of an instruction. -/
def mnemonic : Instruction → Text
  | .data _ | .dataLabel _ => "DEFW"
  | .nop => "nop"
  | .aluReg op s _ _ _ _ | .aluImm op s _ _ _ => op.mnemonic ++ flagMark s
  | .movReg s _ _ _ => "mov" ++ flagMark s
  | .movImm _ _ | .movLabel _ _ => "mov"
  | .cmpReg _ _ _ | .cmpImm _ _ => "cmp"
  | .tstReg _ _ _ | .tstImm _ _ => "tst"
  | .negReg _ _ _ => "neg"
  | .load _ _ | .loadLabel _ _ => "ld"
  | .store _ _ | .storeLabel _ _ => "st"
  | .branch c _ => "b" ++ c

/-- An immediate operand. -/
def immediate (v : Int) : Text := "#" ++ Text.ofInt v

/-- The operands that an address is written as. -/
def addressOperands (a : Address) : List Text :=
  match a.offset with
  | .none => ["[" ++ a.base.name ++ a.shift.text ++ "]"]
  | .reg r => ["[" ++ a.base.name, r.name ++ a.shift.text ++ "]"]
  | .imm v => ["[" ++ a.base.name, immediate v ++ a.shift.text ++ "]"]

/-- The operands of an instruction. -/
def operands : Instruction → List Text
  | .data v => [Text.ofInt v]
  | .dataLabel l => [l]
  | .nop => []
  | .aluReg _ _ d a b sh => [d.name, a.name, b.name ++ sh.text]
  | .aluImm _ _ d a v => [d.name, a.name, immediate v]
  | .movReg _ d a sh => [d.name, a.name ++ sh.text]
  | .movImm d v => [d.name, immediate v]
  | .movLabel d l => [d.name, "#" ++ l]
  | .cmpReg a b sh | .tstReg a b sh => [a.name, b.name ++ sh.text]
  | .cmpImm a v | .tstImm a v => [a.name, immediate v]
  | .negReg d a sh => [d.name, a.name ++ sh.text]
  | .load r a | .store r a => r.name :: addressOperands a
  | .loadLabel r l | .storeLabel r l => [r.name, l]
  | .branch _ l => [l]

/-- What stands behind the first word. -/
def operandText : List Text → Text
  | [] => []
  | w :: ws => " " ++ Text.join ", " (w :: ws)

theorem addressText_eq (w : Text) (a : Address) :
    w ++ ", " ++ a.text = Text.join ", " (w :: addressOperands a) := by
  obtain ⟨base, offset, shift⟩ := a
  cases offset with
  | none => simp only [Address.text, addressOperands, Text.join, List.append_assoc, List.append_nil]
  | reg r => simp only [Address.text, addressOperands, Text.join, List.append_assoc]
  | imm v =>
    simp only [Address.text, addressOperands, Text.join, immediate, List.append_assoc]
    rfl

/-- An instruction is its first word and its operands, between commas. -/
theorem text_eq (i : Instruction) : i.text = i.mnemonic ++ operandText i.operands := by
  cases i with
  | data | dataLabel | nop => rfl
  | aluReg | movReg | branch =>
    simp only [text, mnemonic, operands, operandText, Text.join, List.append_assoc]
  | load r a | store r a =>
    simp only [text, mnemonic, operands, operandText, ← addressText_eq, List.append_assoc]
    rfl
  | _ =>
    simp only [text, mnemonic, operands, operandText, Text.join, immediate, List.append_assoc]
    rfl

end Instruction

end Assembly

namespace Audit

open Assembly

/-- Whether a text can stand as a word: visible characters, and no comma. -/
def isToken (w : Text) : Bool := !w.isEmpty && w.all fun b => Text.isVisible b && b != 44

theorem isToken_iff {w : Text} :
    isToken w = true ↔ w ≠ [] ∧ ∀ b ∈ w, Text.isVisible b = true ∧ b ≠ 44 := by
  simp [isToken, List.all_eq_true]

theorem isToken_append {v w : Text} (hv : isToken v = true) (hw : isToken w = true) :
    isToken (v ++ w) = true := by
  rw [isToken_iff] at hv hw ⊢
  refine ⟨by simp [hv.1], ?_⟩
  intro b hb
  rcases List.mem_append.1 hb with hb | hb
  exacts [hv.2 b hb, hw.2 b hb]

theorem isSolid_of_isToken {w : Text} (h : isToken w = true) : Text.IsSolid w :=
  .of_visible (isToken_iff.1 h).1 fun b hb => ((isToken_iff.1 h).2 b hb).1

theorem words_token_append {w t : Text} (hw : isToken w = true)
    (ht : ∀ b ∈ t.head?, b = 32 ∨ b = 44) : words (w ++ t) = w :: words t := by
  obtain ⟨hne, hb⟩ := isToken_iff.1 hw
  have hmap : (w.map fun b => if b = 44 then 32 else b) = w := by
    conv_rhs => rw [← List.map_id w]
    exact List.map_congr_left fun b h => if_neg (hb b h).2
  rw [words, List.map_append, hmap, Text.words_append hne (fun b h => (hb b h).1), words]
  cases t with
  | nil => simp
  | cons b t =>
    rcases ht b (by simp) with rfl | rfl <;> simp

theorem words_separator {b : UInt8} (hb : b = 32 ∨ b = 44) (t : Text) :
    words (b :: t) = words t := by
  rcases hb with rfl | rfl
  · exact Text.words_space _
  · exact Text.words_space _

theorem words_token {w : Text} (hw : isToken w = true) : words w = [w] := by
  have h := words_token_append (t := []) hw (by simp)
  rwa [List.append_nil] at h

theorem join_cons_cons (v w : Text) (ws : List Text) :
    Text.join ", " (v :: w :: ws) = v ++ 44 :: 32 :: Text.join ", " (w :: ws) := by
  change v ++ Text.ofString ", " ++ Text.join ", " (w :: ws) = _
  rw [List.append_assoc]
  rfl

theorem words_join {ws : List Text} (h : ∀ w ∈ ws, isToken w = true) :
    words (Text.join ", " ws) = ws := by
  induction ws with
  | nil => rfl
  | cons v ws ih =>
    cases ws with
    | nil => exact words_token (h v (by simp))
    | cons w ws =>
      rw [join_cons_cons, words_token_append (h v (by simp)) (by simp), words_separator (.inr rfl),
        words_separator (.inl rfl), ih fun x hx => h x (by simp [hx])]

theorem isSolid_join {ws : List Text} (hne : ws ≠ []) (h : ∀ w ∈ ws, isToken w = true) :
    Text.IsSolid (Text.join ", " ws) := by
  induction ws with
  | nil => exact absurd rfl hne
  | cons v ws ih =>
    cases ws with
    | nil => exact isSolid_of_isToken (h v (by simp))
    | cons w ws =>
      exact (isSolid_of_isToken (h v (by simp))).append (m := ", ") (by decide)
        (ih (by simp) fun x hx => h x (by simp [hx]))

/-! ### Readable instructions -/

/-- Whether an operand breaks no rule: all that an audit notes is the use of a label. -/
def Harmless (w : Text) : Prop :=
  ∀ (line : Nat) (a : Audit), ∃ us, operand line a w = { a with uses := us }

theorem exists_use (a : Audit) (line : Nat) (l : Text) :
    ∃ us, a.use line l = { a with uses := us } := by
  unfold use
  split
  · exact ⟨a.uses, rfl⟩
  · exact ⟨_, rfl⟩

/-- An operand that is not immediate breaks no rule. -/
theorem harmless_of_head? {w : Text} (h : (dropBrackets w).head? ≠ some 35) : Harmless w := by
  intro line a
  have hi : ((dropBrackets w).head? == some 35) = false := by simpa using h
  unfold operand
  simp only [hi, Bool.false_eq_true, false_and, ↓reduceIte]
  split
  · exact ⟨a.uses, rfl⟩
  · split
    · exact ⟨a.uses, rfl⟩
    · exact exists_use a line _

theorem harmless_of_notMem {w : Text} (h : (35 : UInt8) ∉ w) : Harmless w := by
  apply harmless_of_head?
  intro he
  have hsub : (dropBrackets w).Sublist w := by
    have h₁ := (List.dropWhile_sublist (p := isBracket) (l := w)).reverse
    have h₂ := (List.dropWhile_sublist (p := isBracket)
      (l := (w.dropWhile isBracket).reverse)).trans h₁
    simpa [dropBrackets] using h₂.reverse
  exact h (hsub.subset (List.mem_of_mem_head? he))

theorem immediate_small {v : Int} (h : minImm ≤ v ∧ v ≤ maxImm) :
    dropBrackets (Instruction.immediate v) = Instruction.immediate v ∧
      dropBrackets (Instruction.immediate v ++ "]") = Instruction.immediate v ∧
      isToken (Instruction.immediate v) = true ∧
      (Numeral.readInt 10 (Text.ofInt v)).toOption = some v := by
  -- there are 32 such values
  have key : ∀ k : Fin 32,
      dropBrackets (Instruction.immediate ((k.val : Int) - 16)) = Instruction.immediate (k - 16) ∧
      dropBrackets (Instruction.immediate ((k.val : Int) - 16) ++ "]") =
        Instruction.immediate (k - 16) ∧
      isToken (Instruction.immediate ((k.val : Int) - 16)) = true ∧
      (Numeral.readInt 10 (Text.ofInt ((k.val : Int) - 16))).toOption =
        some ((k.val : Int) - 16) := by
    decide
  simp only [minImm, maxImm] at h
  have hk := key ⟨(v + 16).toNat, by omega⟩
  have hv : (((v + 16).toNat : Nat) : Int) - 16 = v := by omega
  simpa only [hv] using hk

/-- An immediate operand that fits its field breaks no rule. -/
theorem harmless_of_immediate {w : Text} {v : Int} (hw : dropBrackets w = Instruction.immediate v)
    (h : minImm ≤ v ∧ v ≤ maxImm) : Harmless w := by
  intro line a
  obtain ⟨-, -, -, hr⟩ := immediate_small h
  have hr : Numeral.readInt 10 (Text.ofInt v) = .ok v := by
    cases hc : Numeral.readInt 10 (Text.ofInt v) with
    | error e => simp [hc, Except.toOption] at hr
    | ok u => simpa [hc, Except.toOption] using hr
  have hhead : (Instruction.immediate v).head? = some 35 := rfl
  have htail : (Instruction.immediate v).tail = Text.ofInt v := rfl
  refine ⟨a.uses, ?_⟩
  unfold operand
  simp only [hw, hhead, htail, beq_self_eq_true, ↓reduceIte, hr, true_and]
  rw [if_neg (by omega)]

/-- An immediate operand that is no number breaks no rule. -/
theorem harmless_of_not_number {w t : Text} (hw : dropBrackets w = 35 :: t)
    (ht : (Numeral.readInt 10 t).toOption = none) : Harmless w := by
  intro line a
  unfold operand
  simp only [hw, List.head?_cons, List.tail_cons, beq_self_eq_true, ↓reduceIte, true_and]
  cases hc : Numeral.readInt 10 t with
  | ok v => simp [hc, Except.toOption] at ht
  | error e =>
    simp only
    split
    · exact ⟨a.uses, rfl⟩
    · exact exists_use a line _

end Audit

namespace Assembly

open Audit

/-- What an audit needs of an operand. -/
structure IsOperand (w : Text) : Prop where
  token : isToken w = true
  notMnemonic : isMnemonic w = false
  harmless : Harmless w

/-- What an audit needs to find the words of an instruction again. -/
structure Instruction.Readable (i : Instruction) : Prop where
  token : isToken i.mnemonic = true
  /-- The line is no remark and no origin. -/
  first : i.mnemonic.head? ≠ some 59 ∧ i.mnemonic.head? ≠ some 111
  operand : ∀ w ∈ i.operands, IsOperand w

/-- What an audit needs to tell a label from an instruction. -/
structure IsLabel (l : Text) : Prop where
  valid : Name.isValid l = true
  long : 5 ≤ l.length
  first : l.head? ≠ some 111

/-- Whether an audit can read a line of an image. -/
def Line.Readable : Line → Prop
  | .code l i => (∀ x ∈ l, IsLabel x) ∧ i.Readable
  | .comment t => (10 : UInt8) ∉ t
  | .blank => True
  | .origin _ => False

/-- A line without its line feed. -/
def Line.body : Line → Text
  | .code none i => i.text
  | .code (some l) i => l ++ " " ++ i.text
  | .comment t => "; " ++ t
  | .blank => []
  | .origin t => "org " ++ t

theorem Line.text_eq (l : Line) : l.text = l.body ++ Text.newline := by
  cases l with
  | code l i => cases l <;> rfl
  | _ => rfl

/-- **Lines** without line feeds are found again in a text, and so is what stands behind them. -/
theorem Line.split_texts {ls : List Line} (h : ∀ l ∈ ls, (10 : UInt8) ∉ l.body) {t : Text}
    (ht : (10 : UInt8) ∉ t) :
    Text.split 10 (ls.flatMap Line.text ++ t) = ls.map Line.body ++ [t] := by
  have hsplit := Text.split_lines_append (List.forall_mem_map.2 h) ht
  rwa [List.flatMap_map, ← funext Line.text_eq] at hsplit

/-! ### Labels are words -/

theorem isToken_of_isValid {n : Text} (h : Name.isValid n = true) : isToken n = true := by
  rw [isToken_iff]
  refine ⟨fun he => by simp [he, Name.isValid] at h, fun b hb => ?_⟩
  have := Name.toNat_of_isByte (Name.isByte_of_isValid h b hb)
  simp only [Text.isVisible, Bool.and_eq_true, decide_eq_true_eq, UInt8.lt_iff_toNat_lt, ne_eq,
    ← UInt8.toNat_inj, UInt8.reduceToNat]
  omega

theorem harmless_of_isValid {n : Text} (h : Name.isValid n = true) : Harmless n := by
  apply harmless_of_notMem
  intro hb
  exact absurd (Name.isByte_of_isValid h 35 hb) (by decide)

/-- The names of instructions have at most four letters. -/
theorem isMnemonic_eq_false {w : Text} (h : 5 ≤ w.length) : isMnemonic w = false := by
  have short : ∀ {ws : List Text} {v : Text} {k : Nat}, (∀ x ∈ ws, x.length ≤ k) → k < v.length →
      ws.contains v = false := by
    intro ws v k hk hv
    rw [List.contains_eq_mem, decide_eq_false_iff_not]
    intro hm
    have := hk v hm
    omega
  have h₁ : mnemonics.contains w = false := short (k := 4) (by decide) (by omega)
  have h₂ : flagForms.contains w.dropLast = false :=
    short (k := 3) (by decide) (by rw [List.length_dropLast]; omega)
  have h₃ : conditions.contains w.tail = false :=
    short (k := 2) (by decide) (by rw [List.length_tail]; omega)
  simp only [isMnemonic, h₁, h₂, h₃, Bool.and_false, Bool.or_false]

/-! ### Readable lines -/

namespace Instruction.Readable

variable {i : Instruction} (h : i.Readable)

include h

theorem words_text : words i.text = i.mnemonic :: i.operands := by
  rw [text_eq]
  have ho : ∀ w ∈ i.operands, isToken w = true := fun w hw => (h.operand w hw).token
  cases he : i.operands with
  | nil => simpa [operandText] using words_token h.token
  | cons v ws =>
    rw [he] at ho
    change words (i.mnemonic ++ 32 :: Text.join ", " (v :: ws)) = _
    rw [words_token_append h.token (by simp), words_separator (.inl rfl), words_join ho]

theorem isSolid_text : Text.IsSolid i.text := by
  rw [text_eq]
  have ho : ∀ w ∈ i.operands, isToken w = true := fun w hw => (h.operand w hw).token
  cases he : i.operands with
  | nil => simpa [operandText] using isSolid_of_isToken h.token
  | cons v ws =>
    rw [he] at ho
    have hs := (isSolid_of_isToken h.token).append (m := " ") (by decide)
      (isSolid_join (by simp) ho)
    rwa [List.append_assoc] at hs

theorem head?_text : i.text.head? = i.mnemonic.head? := by
  have := (isToken_iff.1 h.token).1
  rw [text_eq]
  cases hm : i.mnemonic <;> simp_all

end Instruction.Readable

section Code

variable {l : Option Text} {i : Instruction} (h : (Line.code l i).Readable)

include h

theorem Line.Readable.words_body :
    words (Line.code l i).body = l.toList ++ i.mnemonic :: i.operands := by
  cases l with
  | none => exact h.2.words_text
  | some l =>
    change words (l ++ Text.ofString " " ++ i.text) = _
    rw [List.append_assoc]
    change words (l ++ 32 :: i.text) = _
    rw [words_token_append (isToken_of_isValid (h.1 l rfl).valid) (by simp),
      words_separator (.inl rfl), h.2.words_text]
    rfl

theorem Line.Readable.isSolid_body : Text.IsSolid (Line.code l i).body := by
  cases l with
  | none => exact h.2.isSolid_text
  | some l =>
    exact (isSolid_of_isToken (isToken_of_isValid (h.1 l rfl).valid)).append (by decide)
      h.2.isSolid_text

theorem Line.Readable.head?_body :
    (Line.code l i).body.head? ≠ some 59 ∧ (Line.code l i).body.head? ≠ some 111 := by
  cases l with
  | none =>
    rw [Line.body, h.2.head?_text]
    exact h.2.first
  | some l =>
    have hl := h.1 l rfl
    have hb := Name.isByte_of_isValid hl.valid
    have hf := hl.first
    have hlong := hl.long
    cases l with
    | nil => simp at hlong
    | cons b t =>
      refine ⟨?_, hf⟩
      intro he
      obtain rfl : b = 59 := by simpa [Line.body] using he
      exact absurd (hb 59 (by simp)) (by decide)

end Code

end Assembly

namespace Audit

open Assembly

/-! ### One line -/

theorem step_blank (a : Audit) (line : Nat) : a.step line [] = some a := rfl

theorem step_comment (a : Audit) (line : Nat) (t : Text) :
    a.step line (Line.comment t).body = some a := by
  obtain ⟨u, hu⟩ := Text.trim_cons (b := 59) (by decide) (32 :: t)
  have hb : Text.trim (Line.comment t).body = 59 :: u := hu
  unfold step
  simp only [hb, List.head?_cons, or_true, ↓reduceIte]

/-- An origin that is not blank is found, without the blanks at its ends. -/
theorem step_origin (a : Audit) (line : Nat) {o : Text} (ho : o.isBlank = false) :
    a.step line (Line.origin o).body = some (a.setOrigin line o.trim) := by
  have ht : Text.trim (Line.origin o).body = originMark ++ Text.trimEnd o :=
    Text.trim_append (by decide) (by decide) ho
  have hne : originMark ++ Text.trimEnd o ≠ [] := fun h => by cases h
  have hh : (originMark ++ Text.trimEnd o).head? ≠ some 59 := fun h => by cases h
  unfold step
  simp only [ht, hne, hh, or_self, ↓reduceIte, Text.dropPrefix?_append, Text.trim_trimEnd]

theorem dropPrefix?_originMark {t : Text} (h : t.head? ≠ some 111) :
    t.dropPrefix? originMark = none := by
  cases t with
  | nil => rfl
  | cons b t =>
    have hb : b ≠ 111 := fun e => h (by simp [e])
    exact if_neg hb

theorem step_code (a : Audit) (line : Nat) {l : Option Text} {i : Instruction}
    (h : (Line.code l i).Readable) :
    a.step line (Line.code l i).body = a.code line (l.toList ++ i.mnemonic :: i.operands) := by
  obtain ⟨h₁, h₂⟩ := h.head?_body
  unfold step
  simp only [h.isSolid_body.trim_eq, h.isSolid_body.ne_nil, h₁, or_self, ↓reduceIte,
    dropPrefix?_originMark h₂, h.words_body]

/-! ### What an audit knows -/

/-- **The rules** for the words of an image: every word is an instruction that exists, and no two
words have the same label. -/
def Clean (ws : List (Option Text × Instruction)) : Prop :=
  (∀ w ∈ ws, isMnemonic w.2.mnemonic = true) ∧ (ws.filterMap Prod.fst).Nodup

/-- What an audit knows when it has seen the origin `o` and the words `ws`. -/
structure Noted (o : Text) (ws : List (Option Text × Instruction)) (a : Audit) : Prop where
  seen : a.originSeen = true
  origin : a.origin = o
  clean : a.violations = [] ↔ Clean ws
  labels : a.violations = [] → a.labels.map Prod.fst = ws.filterMap Prod.fst
  instructions : a.violations = [] → a.instructions = ws.length

theorem operands_harmless {ws : List Text} (h : ∀ w ∈ ws, Harmless w) (line : Nat) (a : Audit) :
    ∃ us, ws.foldl (operand line) a = { a with uses := us } := by
  induction ws generalizing a with
  | nil => exact ⟨a.uses, rfl⟩
  | cons w ws ih =>
    obtain ⟨us, hu⟩ := h w (by simp) line a
    obtain ⟨vs, hv⟩ := ih (fun x hx => h x (by simp [hx])) { a with uses := us }
    exact ⟨vs, by rw [List.foldl_cons, hu, hv]⟩

theorem instruction_harmless {ws : List Text} (h : ∀ w ∈ ws, Harmless w) {a : Audit}
    (ha : a.originSeen = true) (line : Nat) :
    ∃ us, a.instruction line ws = { a with instructions := a.instructions + 1, uses := us } := by
  unfold instruction
  simp only [ha, ↓reduceIte]
  exact operands_harmless h line _

section Step

variable {o : Text} {ws : List (Option Text × Instruction)} {a : Audit} (line : Nat)

theorem clean_append {l : Option Text} {i : Instruction} :
    Clean (ws ++ [(l, i)]) ↔
      Clean ws ∧ isMnemonic i.mnemonic = true ∧ ∀ x ∈ l, x ∉ ws.filterMap Prod.fst := by
  cases l with
  | none => simp [Clean, or_imp, forall_and, and_right_comm]
  | some x =>
    have hx : [(some x, i)].filterMap Prod.fst = [x] := rfl
    rw [Clean, List.filterMap_append, hx, List.nodup_append]
    constructor
    · rintro ⟨hm, hn, -, hd⟩
      refine ⟨⟨fun w hw => hm w (by simp [hw]), hn⟩, hm (some x, i) (by simp), ?_⟩
      rintro _ ⟨⟩ hmem
      exact hd x hmem x (by simp) rfl
    · rintro ⟨⟨hm, hn⟩, hi, hnew⟩
      refine ⟨?_, hn, by simp, ?_⟩
      · intro w hw
        rcases List.mem_append.1 hw with hw | hw
        · exact hm w hw
        · obtain rfl := List.mem_singleton.1 hw
          exact hi
      · intro y hy z hz
        obtain rfl := List.mem_singleton.1 hz
        exact fun e => hnew z rfl (e ▸ hy)

/-- An audit with violations knows enough if the rules are broken. -/
theorem Noted.of_violations (hs : a.originSeen = true) (ho : a.origin = o) (hv : a.violations ≠ [])
    (hc : ¬ Clean ws) : Noted o ws a :=
  ⟨hs, ho, by simp [hv, hc], fun h => absurd h hv, fun h => absurd h hv⟩

theorem violations_fail (v : Violation) : (a.fail line v).violations ≠ [] := by simp [fail]

theorem define_frame (l : Text) :
    (a.define line l).originSeen = a.originSeen ∧ (a.define line l).origin = a.origin ∧
      (a.define line l).instructions = a.instructions := by
  unfold define
  split <;> exact ⟨rfl, rfl, rfl⟩

/-- An instruction without a label is noted. -/
theorem Noted.unlabelled (h : Noted o ws a) {i : Instruction}
    (hm : isMnemonic i.mnemonic = true) (us : List (Text × Nat)) :
    Noted o (ws ++ [(none, i)]) { a with instructions := a.instructions + 1, uses := us } where
  seen := h.seen
  origin := h.origin
  clean := by
    rw [clean_append, ← h.clean]
    simp [hm]
  labels hv := by simpa using h.labels hv
  instructions hv := by simpa using h.instructions hv

/-- An instruction with a label is noted, and so is a label that was there before. -/
theorem Noted.labelled (h : Noted o ws a) {i : Instruction}
    (hm : isMnemonic i.mnemonic = true) (l : Text) (us : List (Text × Nat)) :
    Noted o (ws ++ [(some l, i)])
      { a.define line l with instructions := a.instructions + 1, uses := us } := by
  unfold define
  split
  · rename_i previous hl
    refine .of_violations h.seen h.origin (violations_fail line _) fun hc => ?_
    obtain ⟨hws, -, hnew⟩ := clean_append.1 hc
    have hn := hnew l rfl
    rw [← h.labels (h.clean.2 hws), ← Text.lookup_eq_none_iff, hl] at hn
    cases hn
  · rename_i hl
    rw [Text.lookup_eq_none_iff] at hl
    refine ⟨h.seen, h.origin, ?_, fun hv => ?_, fun hv => ?_⟩
    · rw [clean_append, ← h.clean]
      constructor
      · intro hv
        refine ⟨hv, hm, ?_⟩
        rintro _ ⟨⟩
        rwa [← h.labels hv]
      · exact fun hv => hv.1
    · simpa using h.labels hv
    · simpa using h.instructions hv

/-- A word that is no instruction breaks a rule, with a label in front of it or without. -/
theorem exists_fail {l : Option Text} {i : Instruction} (hl : ∀ x ∈ l, IsLabel x)
    (hi : i.Readable) (hm : isMnemonic i.mnemonic = false) :
    ∃ w v, a.code line (l.toList ++ i.mnemonic :: i.operands) =
      some ((a.define line w).fail line v) := by
  cases l with
  | none =>
    cases ho : i.operands with
    | nil => exact ⟨i.mnemonic, .labelsNothing i.mnemonic, by simp [code, hm]⟩
    | cons v vs =>
      have hv : isMnemonic v = false := (hi.operand v (by simp [ho])).notMnemonic
      exact ⟨i.mnemonic, .twoLabels i.mnemonic v, by simp [code, hm, hv]⟩
  | some l =>
    have hl : isMnemonic l = false := isMnemonic_eq_false (hl l rfl).long
    exact ⟨l, .twoLabels l i.mnemonic, by simp [code, hl, hm]⟩

/-- **One word.**  Whatever its label and its first word are, the audit goes on, and knows of the
word what it knew of those before. -/
theorem Noted.code (h : Noted o ws a) {l : Option Text} {i : Instruction}
    (hl : ∀ x ∈ l, IsLabel x) (hi : i.Readable) :
    ∃ a', a.code line (l.toList ++ i.mnemonic :: i.operands) = some a' ∧
      Noted o (ws ++ [(l, i)]) a' := by
  have harm : ∀ w ∈ i.operands, Harmless w := fun w hw => (hi.operand w hw).harmless
  by_cases hm : isMnemonic i.mnemonic = true
  · cases l with
    | none =>
      obtain ⟨us, hus⟩ := instruction_harmless harm h.seen line
      refine ⟨_, ?_, h.unlabelled hm us⟩
      simp [Audit.code, hm, hus]
    | some l =>
      have hl : isMnemonic l = false := isMnemonic_eq_false (hl l rfl).long
      obtain ⟨hs, -, hn⟩ := define_frame (a := a) line l
      obtain ⟨us, hus⟩ := instruction_harmless harm (hs.trans h.seen) line
      refine ⟨_, ?_, h.labelled line hm l us⟩
      simp [Audit.code, hl, hm, hus, hn]
  · obtain ⟨w, v, he⟩ := exists_fail (a := a) line hl hi (by simpa using hm)
    obtain ⟨hs, ho, -⟩ := define_frame (a := a) line w
    refine ⟨_, he, .of_violations (hs.trans h.seen) (ho.trans h.origin) (violations_fail line v) ?_⟩
    exact fun hc => hm (clean_append.1 hc).2.1

end Step

/-! ### All lines -/

/-- Lines without words change nothing. -/
theorem step_of_not_isCode (a : Audit) (line : Nat) {l : Line} (h : l.Readable)
    (hl : l.isCode = false) : a.step line l.body = some a := by
  cases l with
  | code _ _ => cases hl
  | comment t => exact step_comment a line t
  | blank => exact step_blank a line
  | origin t => exact h.elim

/-- **The lines up to the end of a listing.** -/
theorem Noted.steps {o : Text} {ws : List (Option Text × Instruction)} {a : Audit}
    (h : Noted o ws a) {ls : List Line} (hls : ∀ l ∈ ls, l.Readable) (line : Nat) :
    ∃ a', a.steps line (ls.map Line.body ++ [[]]) = some a' ∧
      Noted o (ws ++ ls.filterMap Line.word?) a' := by
  induction ls generalizing a ws line with
  | nil => exact ⟨a, rfl, by simpa using h⟩
  | cons l ls ih =>
    have hr : l.Readable := hls l (by simp)
    have hrest : ∀ l ∈ ls, l.Readable := fun x hx => hls x (by simp [hx])
    rw [List.map_cons, List.cons_append, Audit.steps]
    cases l with
    | code x i =>
      obtain ⟨a₁, he, h₁⟩ := h.code line hr.1 hr.2
      obtain ⟨a', hs, h'⟩ := ih h₁ hrest (line + 1)
      refine ⟨a', ?_, by simpa [Line.word?] using h'⟩
      rw [step_code a line hr, he, Option.bind_some, hs]
    | comment _ | blank | origin _ =>
      obtain ⟨a', hs, h'⟩ := ih h hrest (line + 1)
      refine ⟨a', ?_, h'⟩
      rw [step_of_not_isCode a line hr rfl, Option.bind_some, hs]

theorem steps_remarks (a : Audit) (line : Nat) {ls : List Line}
    (h : ∀ l ∈ ls, l.Readable ∧ l.isCode = false) (ts : List Text) :
    a.steps line (ls.map Line.body ++ ts) = a.steps (line + ls.length) ts := by
  induction ls generalizing line with
  | nil => rfl
  | cons l ls ih =>
    obtain ⟨hr, hl⟩ := h l (by simp)
    rw [List.map_cons, List.cons_append, steps, step_of_not_isCode a line hr hl, Option.bind_some,
      ih (line + 1) fun x hx => h x (by simp [hx]), List.length_cons]
    congr 1
    omega

theorem newline_notMem_body {l : Line} (h : l.Readable) : (10 : UInt8) ∉ l.body := by
  cases l with
  | code _ _ => exact h.isSolid_body.newline_notMem
  | comment t =>
    have hs : (10 : UInt8) ∉ Text.ofString "; " := by decide
    have ht : (10 : UInt8) ∉ t := h
    simp [Line.body, hs, ht]
  | blank => exact List.not_mem_nil
  | origin t => exact h.elim

/-- The lines of a text with an origin, which is not broken over lines. -/
theorem split_text {remarks ls : List Line} {o : Text} (hr : ∀ l ∈ remarks, l.Readable)
    (hn : (10 : UInt8) ∉ o) (hls : ∀ l ∈ ls, l.Readable) :
    Text.split 10 ((remarks ++ .origin o :: ls).flatMap Line.text) =
      (remarks ++ .origin o :: ls).map Line.body ++ [[]] := by
  have hlines : ∀ l ∈ remarks ++ .origin o :: ls, (10 : UInt8) ∉ l.body := by
    simp only [List.mem_append, List.mem_cons]
    rintro l (hl | rfl | hl)
    · exact newline_notMem_body (hr l hl)
    · have hs : (10 : UInt8) ∉ Text.ofString "org " := by decide
      simpa [Line.body, hs] using hn
    · exact newline_notMem_body (hls l hl)
  simpa using Line.split_texts hlines List.not_mem_nil

/-- **Audit of a listing** whose origin comes behind remarks and in front of all words: it can be
read, and the audit knows the words and the origin. -/
theorem ofText_lines {remarks ls : List Line} {o : Text}
    (hr : ∀ l ∈ remarks, l.Readable ∧ l.isCode = false) (ho : o.isBlank = false)
    (hn : (10 : UInt8) ∉ o) (hls : ∀ l ∈ ls, l.Readable) :
    ∃ a, ofText ((remarks ++ .origin o :: ls).flatMap Line.text) = some a ∧
      Noted o.trim (ls.filterMap Line.word?) a := by
  have hsplit : Text.split 10 ((remarks ++ .origin o :: ls).flatMap Line.text) =
      remarks.map Line.body ++ (Line.origin o).body :: (ls.map Line.body ++ [[]]) := by
    rw [split_text (fun l hl => (hr l hl).1) hn hls, List.map_append, List.map_cons,
      List.append_assoc, List.cons_append]
  have h₀ : Noted o.trim [] (({} : Audit).setOrigin (1 + remarks.length) o.trim) :=
    ⟨rfl, rfl, by simp [setOrigin, Clean], fun _ => rfl, fun _ => rfl⟩
  obtain ⟨a, hs, ha⟩ := h₀.steps hls (1 + remarks.length + 1)
  refine ⟨a, ?_, by simpa using ha⟩
  rw [ofText, hsplit, steps_remarks _ _ hr, steps, step_origin _ _ ho, Option.bind_some, hs]

end Audit

end StumpGen
