import StumpGen.Proofs.Layout
import StumpGen.Proofs.Reading

/-!
# Audits of compiled programs

The code generator uses few of the target's instructions, and writes them with few kinds of
operands.  `Instruction.Plain` is that fragment; what lies in it can be read back by an audit
(`Instruction.Plain.readable`), and everything that a program is lowered to lies in it
(`Lowered.plain`, `Passes.plain`), provided the names of the program are valid.

**Main theorem** (`audit_compile`): the audit of a program that compiles succeeds, and finds nothing
exactly when no function marks a label twice and every conditional jump has a condition of the
target; then its count of words is that of the compilation and its origin that of the options.
-/

namespace StumpGen

namespace Assembly

open Audit

/-- Whether a target register exists. -/
def Reg.isReal : Reg → Bool
  | .other _ => false
  | _ => true

/-- Whether an immediate operand fits its field. -/
def IsSmall (v : Int) : Prop := Audit.minImm ≤ v ∧ v ≤ Audit.maxImm

instance (v : Int) : Decidable (IsSmall v) := inferInstanceAs (Decidable (_ ∧ _))

/-- What can be added to the base of an address. -/
def Offset.Plain : Offset → Prop
  | .none => True
  | .reg r => r.isReal = true
  | .imm v => IsSmall v

/-- An address without a shift. -/
structure Address.Plain (a : Address) : Prop where
  base : a.base.isReal = true
  offset : a.offset.Plain
  shift : a.shift = .none

/-- The instructions of the code generator, with operands that can be read back.  The conditions of
branches are among those that `C` allows. -/
def Instruction.Plain (C : Text → Prop) : Instruction → Prop
  | .data _ | .nop => True
  | .dataLabel l => IsLabel l
  | .aluReg op s d a b sh =>
    (op = .add ∨ op = .and) ∧ s = false ∧ d.isReal = true ∧ a.isReal = true ∧ b.isReal = true ∧
      sh = .none
  | .aluImm op s d a v =>
    (op = .add ∨ op = .and) ∧ s = false ∧ d.isReal = true ∧ a.isReal = true ∧ IsSmall v
  | .movReg s d a sh => s = false ∧ d.isReal = true ∧ a.isReal = true ∧ sh = .none
  | .movImm d v => d.isReal = true ∧ IsSmall v
  | .movLabel d l => d.isReal = true ∧ (l = Label.exit ∨ l = Label.stackPointer)
  | .cmpReg a b sh => a.isReal = true ∧ b.isReal = true ∧ sh = .none
  | .cmpImm a v => a.isReal = true ∧ IsSmall v
  | .load r a | .store r a => r.isReal = true ∧ a.Plain
  | .loadLabel r l | .storeLabel r l => r.isReal = true ∧ IsLabel l
  | .branch c l => C c ∧ IsLabel l
  | .tstReg _ _ _ | .tstImm _ _ | .negReg _ _ _ => False

/-! ### Operands -/

theorem IsOperand.of_notMem {w : Text} (h₁ : isToken w = true) (h₂ : isMnemonic w = false)
    (h₃ : (35 : UInt8) ∉ w) : IsOperand w :=
  ⟨h₁, h₂, harmless_of_notMem h₃⟩

theorem IsLabel.isOperand {l : Text} (h : IsLabel l) : IsOperand l :=
  ⟨isToken_of_isValid h.valid, isMnemonic_eq_false h.long, harmless_of_isValid h.valid⟩

/-- A register is an operand, also with brackets around it. -/
theorem isOperand_reg {r : Reg} (h : r.isReal = true) {p s : Text} (hp : p = [] ∨ p = "[")
    (hs : s = [] ∨ s = "]") : IsOperand (p ++ r.name ++ s) := by
  cases r with
  | other i => cases h
  | _ =>
    rcases hp with rfl | rfl <;> rcases hs with rfl | rfl <;>
      exact .of_notMem (by decide) (by decide) (by decide)

theorem isOperand_name {r : Reg} (h : r.isReal = true) : IsOperand r.name := by
  have := isOperand_reg h (.inl rfl) (.inl rfl)
  rwa [List.append_nil] at this

/-- Names of instructions start with letters. -/
theorem isMnemonic_of_lt {b : UInt8} {t : Text} (hb : b < 65) : isMnemonic (b :: t) = false := by
  have letters : ∀ {ws : List Text} {v : Text}, (∀ w ∈ ws, w.head?.all (65 ≤ ·) = true) →
      v.head? = some b → ws.contains v = false := by
    intro ws v hw hv
    rw [List.contains_eq_mem, decide_eq_false_iff_not]
    intro hm
    have := hw v hm
    rw [hv, Option.all_some, decide_eq_true_eq] at this
    exact absurd (UInt8.lt_of_lt_of_le hb this) (UInt8.lt_irrefl b)
  have h₁ : mnemonics.contains (b :: t) = false := letters (by decide) rfl
  have h₂ : flagForms.contains (b :: t).dropLast = false := by
    cases t with
    | nil => exact (by decide : flagForms.contains [] = false)
    | cons c t => exact letters (by decide) rfl
  have h₃ : ((b :: t).head? == some 98) = false := by
    rw [List.head?_cons, Option.some_beq_some, beq_eq_false_iff_ne]
    rintro rfl
    exact absurd hb (by decide)
  simp only [isMnemonic, h₁, h₂, h₃, Bool.and_false, Bool.false_and, Bool.or_false]

theorem isOperand_immediate {v : Int} (h : IsSmall v) :
    IsOperand (Instruction.immediate v) ∧ IsOperand (Instruction.immediate v ++ "]") := by
  obtain ⟨h₁, h₂, ht, -⟩ := immediate_small h
  exact ⟨⟨ht, isMnemonic_of_lt (by decide), harmless_of_immediate h₁ h⟩,
    ⟨isToken_append ht (by decide), isMnemonic_of_lt (by decide), harmless_of_immediate h₂ h⟩⟩

theorem ofInt_ne_nil (v : Int) : Text.ofInt v ≠ [] := by
  cases v with
  | ofNat n => exact Text.ofNat_ne_nil n
  | negSucc n => exact fun h => Text.ofNat_ne_nil _ (List.append_eq_nil_iff.1 h).2

theorem isOperand_ofInt (v : Int) : IsOperand (Text.ofInt v) := by
  have key : ∀ b ∈ Text.ofInt v, 45 ≤ b.toNat ∧ b.toNat ≤ 57 := by
    intro b hb
    rcases Text.ofInt_bytes hb with rfl | hd
    · decide
    · simp only [Text.isDigit, Bool.and_eq_true, decide_eq_true_eq, UInt8.le_iff_toNat_le,
        UInt8.reduceToNat] at hd
      omega
  refine .of_notMem ?_ ?_ fun h => absurd (key 35 h) (by decide)
  · rw [isToken_iff]
    refine ⟨ofInt_ne_nil v, fun b hb => ?_⟩
    have := key b hb
    simp only [Text.isVisible, Bool.and_eq_true, decide_eq_true_eq, UInt8.lt_iff_toNat_lt, ne_eq,
      ← UInt8.toNat_inj, UInt8.reduceToNat]
    omega
  · cases hv : Text.ofInt v with
    | nil => exact absurd hv (ofInt_ne_nil v)
    | cons b t =>
      have := key b (by simp [hv])
      refine isMnemonic_of_lt ?_
      simp only [UInt8.lt_iff_toNat_lt, UInt8.reduceToNat]
      omega

theorem Address.Plain.isOperand {a : Address} (h : a.Plain) :
    ∀ w ∈ Instruction.addressOperands a, IsOperand w := by
  obtain ⟨base, offset, shift⟩ := a
  obtain ⟨hb, ho, hs⟩ := h
  obtain rfl : shift = .none := hs
  have hn : Shift.none.text = [] := rfl
  cases offset with
  | none =>
    simpa [Instruction.addressOperands, hn] using isOperand_reg hb (.inr rfl) (.inr rfl)
  | reg r =>
    have hopen := isOperand_reg hb (.inr rfl) (.inl rfl)
    have hclose := isOperand_reg ho (.inl rfl) (.inr rfl)
    simpa [Instruction.addressOperands, hn] using And.intro hopen hclose
  | imm v =>
    have hopen := isOperand_reg hb (.inr rfl) (.inl rfl)
    simpa [Instruction.addressOperands, hn] using And.intro hopen (isOperand_immediate ho).2

/-! ### Plain instructions can be read -/

namespace Instruction

/-- The first words of the instructions of the code generator, but for branches. -/
def plainMnemonics : List Text := ["DEFW", "nop", "add", "and", "mov", "cmp", "ld", "st"]

theorem of_mem_plainMnemonics {m : Text} (h : m ∈ plainMnemonics) :
    isMnemonic m = true ∧ isToken m = true ∧ m.head? ≠ some 59 ∧ m.head? ≠ some 111 := by
  revert m
  decide

namespace Plain

variable {C : Text → Prop} {i : Instruction}

theorem mnemonic_mem (h : i.Plain C) (hb : ∀ c l, i ≠ .branch c l) :
    i.mnemonic ∈ plainMnemonics := by
  have hf : flagMark false = [] := rfl
  cases i with
  | aluReg op s d a b sh =>
    obtain ⟨rfl | rfl, rfl, -⟩ := h <;> simp [mnemonic, Operation.mnemonic, hf, plainMnemonics]
  | aluImm op s d a v =>
    obtain ⟨rfl | rfl, rfl, -⟩ := h <;> simp [mnemonic, Operation.mnemonic, hf, plainMnemonics]
  | movReg s d a sh =>
    obtain ⟨rfl, -⟩ := h
    simp [mnemonic, hf, plainMnemonics]
  | tstReg | tstImm | negReg => exact h.elim
  | branch c l => exact absurd rfl (hb c l)
  | _ => simp [mnemonic, plainMnemonics]

theorem operand (h : i.Plain C) : ∀ w ∈ i.operands, IsOperand w := by
  have hn : Shift.none.text = [] := rfl
  cases i with
  | data v => simpa [operands] using isOperand_ofInt v
  | dataLabel l => simpa [operands] using IsLabel.isOperand h
  | nop => simp [operands]
  | aluReg op s d a b sh =>
    obtain ⟨-, -, hd, ha, hb, rfl⟩ := h
    simp [operands, hn, isOperand_name hd, isOperand_name ha, isOperand_name hb]
  | aluImm op s d a v =>
    obtain ⟨-, -, hd, ha, hv⟩ := h
    simp [operands, isOperand_name hd, isOperand_name ha, (isOperand_immediate hv).1]
  | movReg s d a sh =>
    obtain ⟨-, hd, ha, rfl⟩ := h
    simp [operands, hn, isOperand_name hd, isOperand_name ha]
  | movImm d v =>
    obtain ⟨hd, hv⟩ := h
    simp [operands, isOperand_name hd, (isOperand_immediate hv).1]
  | movLabel d l =>
    obtain ⟨hd, hl⟩ := h
    have hl : IsOperand ("#" ++ l) := by
      rcases hl with rfl | rfl <;>
        exact ⟨by decide, by decide, harmless_of_not_number rfl (by decide)⟩
    simp [operands, isOperand_name hd, hl]
  | cmpReg a b sh =>
    obtain ⟨ha, hb, rfl⟩ := h
    simp [operands, hn, isOperand_name ha, isOperand_name hb]
  | cmpImm a v =>
    obtain ⟨ha, hv⟩ := h
    simp [operands, isOperand_name ha, (isOperand_immediate hv).1]
  | load r a | store r a =>
    obtain ⟨hr, ha⟩ := h
    simpa [operands, isOperand_name hr] using ha.isOperand
  | loadLabel r l | storeLabel r l =>
    obtain ⟨hr, hl⟩ := h
    simp [operands, isOperand_name hr, hl.isOperand]
  | branch c l => simpa [operands] using h.2.isOperand
  | tstReg | tstImm | negReg => exact h.elim

/-- **What the code generator emits can be read back.** -/
theorem readable (h : i.Plain C) (hC : ∀ c, C c → Name.isValid c = true) : i.Readable := by
  by_cases hb : ∃ c l, i = .branch c l
  · obtain ⟨c, l, rfl⟩ := hb
    have hc := isToken_of_isValid (hC c h.1)
    have hh : (branch c l).mnemonic.head? = some 98 := rfl
    exact ⟨isToken_append (by decide) hc, by simp [hh], h.operand⟩
  · obtain ⟨-, ht, hf⟩ := of_mem_plainMnemonics (h.mnemonic_mem fun c l he => hb ⟨c, l, he⟩)
    exact ⟨ht, hf, h.operand⟩

end Plain

theorem isMnemonic_branch {c l : Text} :
    isMnemonic (branch c l).mnemonic = true ↔ c ∈ conditions := by
  -- no other name starts with the letter of a branch
  have other : ∀ {ws : List Text} {v : Text}, (∀ w ∈ ws, w.head? ≠ some 98) →
      v.head? = some 98 → ws.contains v = false := by
    intro ws v hw hv
    rw [List.contains_eq_mem, decide_eq_false_iff_not]
    exact fun hm => hw v hm hv
  have h₁ : mnemonics.contains (98 :: c) = false := other (by decide) rfl
  have h₂ : flagForms.contains (98 :: c).dropLast = false := by
    cases c with
    | nil => exact (by decide : flagForms.contains [] = false)
    | cons b c => exact other (by decide) rfl
  have hm : (branch c l).mnemonic = 98 :: c := rfl
  rw [hm, isMnemonic, h₁, h₂]
  simp

theorem Plain.isMnemonic {i : Instruction} (h : i.Plain (· ∈ conditions)) :
    Audit.isMnemonic i.mnemonic = true := by
  by_cases hb : ∃ c l, i = .branch c l
  · obtain ⟨c, l, rfl⟩ := hb
    exact isMnemonic_branch.2 h.1
  · exact (of_mem_plainMnemonics (h.mnemonic_mem fun c l he => hb ⟨c, l, he⟩)).1

end Instruction

/-! ### Plain emissions -/

/-- What the code generator emits behind the origin. -/
def Emission.Plain (C : Text → Prop) : Emission → Prop
  | .label l => IsLabel l
  | .code i => i.Plain C
  | .comment t => (10 : UInt8) ∉ t
  | .blank => True
  | .origin _ => False

section Lines

variable {C : Text → Prop} {es : List Emission} {p : Option Text}

theorem readable_linesFrom (hC : ∀ c, C c → Name.isValid c = true) (hp : ∀ x ∈ p, IsLabel x)
    (h : ∀ e ∈ es, e.Plain C) : ∀ l ∈ linesFrom p es, l.Readable := by
  have hnop : Instruction.nop.Readable :=
    Instruction.Plain.readable (C := C) (i := .nop) trivial hC
  induction es generalizing p with
  | nil => simp [linesFrom]
  | cons e es ih =>
    have he : e.Plain C := h e (by simp)
    have hes : ∀ e ∈ es, e.Plain C := fun x hx => h x (by simp [hx])
    cases e with
    | label n =>
      have hn : IsLabel n := he
      have hne : n.isEmpty = false := by
        cases n with
        | nil => exact absurd hn.long (by simp)
        | cons => rfl
      simp only [linesFrom, hne, Bool.false_eq_true, ↓reduceIte, List.mem_append, List.mem_map,
        Option.mem_toList]
      rintro l (⟨x, hx, rfl⟩ | hl)
      · refine ⟨?_, hnop⟩
        rintro _ ⟨⟩
        exact hp x hx
      · refine ih ?_ hes l hl
        rintro _ ⟨⟩
        exact hn
    | code i =>
      simp only [linesFrom, List.mem_cons]
      rintro l (rfl | hl)
      · exact ⟨hp, he.readable hC⟩
      · exact ih (by simp) hes l hl
    | comment t =>
      simp only [linesFrom, List.mem_cons]
      rintro l (rfl | hl)
      · exact he
      · exact ih hp hes l hl
    | blank =>
      simp only [linesFrom, List.mem_cons]
      rintro l (rfl | hl)
      · exact trivial
      · exact ih hp hes l hl
    | origin t => exact he.elim

theorem plain_wordsFrom (h : ∀ e ∈ es, e.Plain C) : ∀ w ∈ wordsFrom p es, w.2.Plain C := by
  induction es generalizing p with
  | nil => simp
  | cons e es ih =>
    have he : e.Plain C := h e (by simp)
    have hes : ∀ e ∈ es, e.Plain C := fun x hx => h x (by simp [hx])
    cases e with
    | label n =>
      simp only [wordsFrom_label, List.mem_append, List.mem_map]
      rintro w (⟨x, -, rfl⟩ | hw)
      · exact trivial
      · exact ih hes w hw
    | code i =>
      simp only [wordsFrom_code, List.mem_cons]
      rintro w (rfl | hw)
      · exact he
      · exact ih hes w hw
    | comment _ | blank | origin _ => exact ih hes

theorem exists_word_of_code {i : Instruction} (h : .code i ∈ es) :
    ∃ l, (l, i) ∈ wordsFrom p es := by
  induction es generalizing p with
  | nil => cases h
  | cons e es ih =>
    rcases List.mem_cons.1 h with rfl | hes
    · exact ⟨p, by simp⟩
    · cases e with
      | label n =>
        obtain ⟨l, hl⟩ := ih (p := if n.isEmpty then none else some n) hes
        exact ⟨l, by rw [wordsFrom_label]; exact List.mem_append_right _ hl⟩
      | code j =>
        obtain ⟨l, hl⟩ := ih (p := none) hes
        exact ⟨l, by rw [wordsFrom_code]; exact List.mem_cons_of_mem _ hl⟩
      | comment _ | blank | origin _ => exact ih hes

end Lines

end Assembly

open Assembly Lowering

/-! ### Names -/

/-- The names that a statement declares or jumps to. -/
def Statement.names : Statement → List Text
  | .goto l | .gotoCond _ l | .label l | .declare l => [l]
  | _ => []

/-- The conditions of a statement. -/
def Statement.conditions : Statement → List Text
  | .gotoCond c _ => [c]
  | _ => []

/-- The names of a function: its own, those of its parameters, and those in its statements. -/
def Function.names (f : Function) : List Text :=
  f.name :: f.params ++ f.body.flatMap Statement.names

/-- The names that a program declares or jumps to.  Names that are used in any other way have to be
declared. -/
def Program.names (p : Program) : List Text := p.globals ++ p.functions.flatMap Function.names

/-- The conditions of the jumps of a program. -/
def Program.conditions (p : Program) : List Text :=
  p.functions.flatMap fun f => f.body.flatMap Statement.conditions

namespace Lowering

/-- A scope in which all names are valid. -/
structure Scope.Named (sc : Scope) : Prop where
  function : Name.isValid sc.function = true
  global : ∀ n, sc.symbols.isGlobal n = true → Name.isValid n = true
  callee : ∀ n k, sc.symbols.arity? n = some k → Name.isValid n = true
  frame : ∀ n ∈ sc.frame, Name.isValid n = true

/-! ### Labels -/

theorem isLabel_append {s t : Text} (hv : Name.isValid (s ++ t) = true) (hs : 5 ≤ s.length)
    (hf : s.head? ≠ some 111) : IsLabel (s ++ t) where
  valid := hv
  long := by
    rw [List.length_append]
    omega
  first := by
    cases s with
    | nil => simp at hs
    | cons b s => exact hf

theorem isLabel_global {n : Text} (h : Name.isValid n = true) : IsLabel (Label.global n) :=
  isLabel_append (Label.isValid_global h) (by decide) (by decide)

theorem isLabel_function {n : Text} (h : Name.isValid n = true) : IsLabel (Label.function n) :=
  isLabel_append (Label.isValid_function h) (by decide) (by decide)

theorem isLabel_generated (n : Nat) : IsLabel (Label.generated n) :=
  isLabel_append (Label.isValid_generated n) (by decide) (by decide)

theorem isLabel_user {f n : Text} (hf : Name.isValid f = true) (hn : Name.isValid n = true) :
    IsLabel (Label.user f n) := by
  have hv := Label.isValid_user hf hn
  by_cases hu : (95 : UInt8) ∈ f
  · rw [Label.user_of_underscore n hu] at hv ⊢
    exact isLabel_append hv (by decide) (by decide)
  · rw [Label.user_of_no_underscore n hu] at hv ⊢
    exact isLabel_append hv (by decide) (by decide)

/-! ### Remarks -/

/-- Whether a text has no line feed. -/
def oneLine (t : Text) : Bool := !t.contains 10

theorem oneLine_append (s t : Text) : oneLine (s ++ t) = (oneLine s && oneLine t) := by
  simp [oneLine, Bool.not_or]

theorem oneLine_of_isValid {n : Text} (h : Name.isValid n = true) : oneLine n = true := by
  have : (10 : UInt8) ∉ n := fun hb => absurd (Name.isByte_of_isValid h 10 hb) (by decide)
  simpa [oneLine] using this

theorem oneLine_ofInt (v : Int) : oneLine (Text.ofInt v) = true := by
  simpa [oneLine] using Text.newline_notMem_ofInt v

theorem oneLine_target (r : Register) : oneLine r.target.name = true := by
  cases r <;> rfl

theorem isReal_target (r : Register) : r.target.isReal = true := by cases r <;> rfl

/-! ### Code pieces -/

section Pieces

variable {C : Text → Prop}

theorem plain_comment {t : Text} (h : oneLine t = true) : (Emission.comment t).Plain C := by
  simpa [Emission.Plain, oneLine] using h

theorem plain_remarked {t : Text} {es : List Emission} (h : oneLine t = true)
    (hes : ∀ e ∈ es, e.Plain C) : ∀ e ∈ .comment t :: es, e.Plain C :=
  List.forall_mem_cons.2 ⟨plain_comment h, hes⟩

theorem plain_line {t : Text} {e : Emission} (h : oneLine t = true) (he : e.Plain C) :
    ∀ x ∈ [.comment t, e], x.Plain C :=
  plain_remarked h (List.forall_mem_singleton.2 he)

theorem plain_addImm {d a : Reg} {v : Int} (hd : d.isReal = true) (ha : a.isReal = true)
    (hv : IsSmall v) : (Emission.code (.addImm d a v)).Plain C :=
  ⟨.inl rfl, rfl, hd, ha, hv⟩

theorem plain_addReg {d a b : Reg} (hd : d.isReal = true) (ha : a.isReal = true)
    (hb : b.isReal = true) : (Emission.code (.addReg d a b)).Plain C :=
  ⟨.inl rfl, rfl, hd, ha, hb, rfl⟩

theorem plain_loadAt {d b : Reg} (hd : d.isReal = true) (hb : b.isReal = true) :
    (Emission.code (.loadAt d b)).Plain C :=
  ⟨hd, hb, trivial, rfl⟩

theorem plain_loadSlot {d b : Reg} {v : Int} (hd : d.isReal = true) (hb : b.isReal = true)
    (hv : IsSmall v) : (Emission.code (.loadSlot d b v)).Plain C :=
  ⟨hd, hb, hv, rfl⟩

theorem plain_storeSlot {s b : Reg} {v : Int} (hs : s.isReal = true) (hb : b.isReal = true)
    (hv : IsSmall v) : (Emission.code (.storeSlot s b v)).Plain C :=
  ⟨hs, hb, hv, rfl⟩

theorem isSmall_natCast {n : Nat} (h : n ≤ 15) : IsSmall n := by
  simp only [IsSmall, Audit.minImm, Audit.maxImm]
  omega

theorem isSmall_neg {n : Nat} (h : n ≤ 15) : IsSmall (-(n : Int)) := by
  simp only [IsSmall, Audit.minImm, Audit.maxImm]
  omega

theorem savedSlots_plain : ∀ x ∈ savedSlots, x.1.isReal = true ∧ x.2 ≤ 4 := by decide

theorem plain_saving {n : Nat} (hn : n ≤ 15) : ∀ e ∈ saving n, e.Plain C := by
  simp only [saving, List.cons_append, List.forall_mem_cons, List.mem_append, List.mem_map,
    List.mem_singleton]
  refine ⟨plain_addImm rfl rfl (isSmall_natCast hn), ?_⟩
  rintro e (⟨⟨r, k⟩, hk, rfl⟩ | rfl)
  · obtain ⟨hr, hk⟩ := savedSlots_plain _ hk
    exact plain_storeSlot hr rfl (isSmall_natCast (by omega))
  · exact plain_addImm rfl rfl (by decide : IsSmall 5)

theorem plain_restoring {n : Nat} (hn : n ≤ 15) (out : Option Reg) :
    ∀ e ∈ restoring n out, e.Plain C := by
  simp only [restoring, List.cons_append, List.forall_mem_cons, List.mem_append, List.mem_map,
    List.mem_singleton, List.mem_filter]
  refine ⟨plain_addImm rfl rfl (by decide : IsSmall (-5)), ?_⟩
  rintro e (⟨⟨r, k⟩, ⟨hk, -⟩, rfl⟩ | rfl)
  · obtain ⟨hr, hk⟩ := savedSlots_plain _ hk
    exact plain_loadSlot hr rfl (isSmall_natCast (by omega))
  · exact plain_addImm rfl rfl (isSmall_neg hn)

theorem plain_entering {callee : Text} (h : Name.isValid callee = true) (n : Nat) :
    ∀ e ∈ entering callee n, e.Plain C := by
  have hg := isLabel_generated
  simp only [entering, List.forall_mem_cons]
  exact ⟨⟨rfl, hg _⟩, ⟨rfl, hg _⟩, ⟨rfl, rfl, rfl, rfl⟩, hg _, isLabel_function h, hg _, hg _,
    by simp⟩

theorem plain_doublings {d s : Reg} (hd : d.isReal = true) (hs : s.isReal = true) (k : Nat) :
    ∀ e ∈ (doublings d s k).map Emission.code, e.Plain C := by
  cases k with
  | zero =>
    simp only [doublings, List.map_cons, List.map_nil, List.forall_mem_cons]
    exact ⟨⟨rfl, hd, hs, rfl⟩, by simp⟩
  | succ k =>
    simp only [doublings, List.map_cons, List.map_replicate, List.forall_mem_cons,
      List.mem_replicate]
    refine ⟨plain_addReg hd hs hs, ?_⟩
    rintro e ⟨-, rfl⟩
    exact plain_addReg hd hd hd

theorem plain_globalEmissions {name : Text} (h : Name.isValid name = true) (words : List Int) :
    ∀ e ∈ globalEmissions name words, e.Plain C := by
  have hr : oneLine ("Global " ++ name) = true := by
    simp only [oneLine_append, oneLine_of_isValid h]
    rfl
  simp only [globalEmissions, List.forall_mem_append, List.forall_mem_cons, List.mem_map]
  refine ⟨⟨trivial, plain_comment hr, isLabel_global h, by simp⟩, ?_⟩
  rintro _ ⟨_, ⟨v, -, rfl⟩, rfl⟩
  exact trivial

theorem plain_functionEnds {f : Function} (h : Name.isValid f.name = true) :
    ∀ e ∈ functionHead f ++ functionTail f, e.Plain C := by
  have hstart : oneLine ("--- Function " ++ f.name ++ " Start ---") = true := by
    simp only [oneLine_append, oneLine_of_isValid h]
    rfl
  have hend : oneLine ("--- Function " ++ f.name ++ " End ---") = true := by
    simp only [oneLine_append, oneLine_of_isValid h]
    rfl
  simp only [functionHead, functionTail, List.forall_mem_append, List.forall_mem_cons]
  exact ⟨⟨trivial, trivial, plain_comment hstart, isLabel_function h, by simp⟩,
    plain_comment rfl, ⟨rfl, rfl, rfl, rfl⟩, plain_comment hend, by simp⟩

variable (hal : C "al")

include hal

theorem plain_embedding {dest : Reg} {word : Instruction} (hd : dest.isReal = true)
    (hw : word.Plain C) (n : Nat) : ∀ e ∈ embedding dest word n, e.Plain C := by
  have hg := isLabel_generated
  simp only [embedding, List.forall_mem_cons]
  exact ⟨⟨hal, hg _⟩, hg _, hw, hg _, ⟨hd, hg _⟩, by simp⟩

theorem plain_embedding_global {dest : Reg} {name : Text} (hd : dest.isReal = true)
    (hn : Name.isValid name = true) (n : Nat) :
    ∀ e ∈ embedding dest (.dataLabel (Label.global name)) n, e.Plain C :=
  have hw : (Instruction.dataLabel (Label.global name)).Plain C := isLabel_global hn
  plain_embedding hal hd hw n

theorem plain_embedding_data {dest : Reg} (hd : dest.isReal = true) (v : Int) (n : Nat) :
    ∀ e ∈ embedding dest (.data v) n, e.Plain C :=
  have hw : (Instruction.data v).Plain C := trivial
  plain_embedding hal hd hw n

theorem plain_storing {name : Text} {src : Reg} (hn : Name.isValid name = true)
    (hs : src.isReal = true) (n : Nat) : ∀ e ∈ storing name src n, e.Plain C := by
  have hb : (borrowed src).isReal = true := by
    unfold borrowed
    split <;> rfl
  have hg := isLabel_generated
  simp only [storing, List.forall_mem_cons]
  exact ⟨⟨hal, hg _⟩, hg _, isLabel_global hn, hg _, trivial, hg _, ⟨hb, hg _⟩, ⟨hb, hg _⟩,
    ⟨hs, hb, trivial, rfl⟩, ⟨hb, hg _⟩, by simp⟩

end Pieces

/-! ### Statements -/

section Statements

variable {C : Text → Prop} {sc : Scope} {n t : Nat} {es : List Emission}

/-- A variable of the frame is a valid name at a place that can be reached. -/
theorem Scope.Named.slot (hsc : sc.Named) {name : Text} {i : Nat}
    (h : sc.resolve name = .ok (.slot i)) : oneLine name = true ∧ IsSmall i := by
  obtain ⟨-, hi, hle⟩ := resolve_eq_slot.1 h
  have hmem : name ∈ sc.frame := by
    by_contra hn
    rw [List.idxOf?_eq_none_iff.2 hn] at hi
    cases hi
  refine ⟨oneLine_of_isValid (hsc.frame name hmem), ?_⟩
  simp only [maxImm] at hle
  exact isSmall_natCast (by omega)

variable (hal : C "al")

include hal

theorem Loaded.plain (hsc : sc.Named) (hf : sc.frame.length ≤ 15) {a : Argument}
    (h : Loaded sc a n es t) : ∀ e ∈ es, e.Plain C := by
  cases h with
  | global h =>
    simp only [List.mem_append, List.mem_singleton]
    rintro e (he | rfl)
    · exact plain_embedding_global hal rfl (hsc.global _ h) _ e he
    · exact plain_loadAt rfl rfl
  | slot h =>
    simp only [List.forall_mem_cons]
    exact ⟨plain_addImm rfl rfl (by decide : IsSmall (-5)), plain_addImm rfl rfl (isSmall_neg hf),
      plain_loadSlot rfl rfl (hsc.slot h).2, plain_addImm rfl rfl (isSmall_natCast hf),
      plain_addImm rfl rfl (by decide : IsSmall 5), by simp⟩
  | small h hv =>
    simp only [List.forall_mem_cons]
    exact ⟨⟨rfl, hv⟩, by simp⟩
  | wide h hv hw => exact plain_embedding_data hal rfl _ _
  | @register r _ slot hl hr =>
    obtain ⟨_, _, he, -⟩ := List.lookup_eq_some_iff.1 hl
    obtain ⟨-, hslot⟩ := savedSlots_plain (r.target, slot) (by simp [he])
    have hslot : IsSmall ((slot : Int) - 5) := by
      simp only [IsSmall, Audit.minImm, Audit.maxImm]
      omega
    simp only [List.forall_mem_cons]
    exact ⟨plain_loadSlot rfl rfl hslot, by simp⟩

theorem Passed.plain (hsc : sc.Named) (hf : sc.frame.length ≤ 15) {k : Nat} {args : List Argument}
    (hk : k + args.length ≤ 16) (h : Passed sc k args n es t) : ∀ e ∈ es, e.Plain C := by
  induction h with
  | nil => simp
  | @cons k a as n es m fs t ha has ih =>
    rw [List.length_cons] at hk
    simp only [List.mem_append, List.mem_cons]
    rintro e (he | rfl | he)
    · exact ha.plain hal hsc hf e he
    · exact plain_storeSlot rfl rfl (isSmall_natCast (by omega))
    · exact ih (by omega) e he

/-- **What a statement is lowered to is plain.** -/
theorem Lowered.plain (hsc : sc.Named) {st : Statement} (h : Lowered sc st n es t)
    (hn : ∀ x ∈ st.names, Name.isValid x = true) (hC : ∀ c ∈ st.conditions, C c) :
    ∀ e ∈ es, e.Plain C := by
  have hr := isReal_target
  cases h with
  | addAssignImm hd h hv =>
    refine plain_line ?_ (plain_addImm (hr _) (hr _) hv)
    simp only [oneLine_append, oneLine_ofInt, oneLine_target]
    rfl
  | addAssignReg hd hs =>
    refine plain_line ?_ (plain_addReg (hr _) (hr _) (hr _))
    simp only [oneLine_append, oneLine_target]
    rfl
  | andImm hd hl h hv =>
    refine plain_line ?_ ⟨.inr rfl, rfl, hr _, hr _, hv⟩
    simp only [oneLine_append, oneLine_ofInt, oneLine_target]
    rfl
  | andReg hd hl hr' =>
    refine plain_line ?_ ⟨.inr rfl, rfl, hr _, hr _, hr _, rfl⟩
    simp only [oneLine_append, oneLine_target]
    rfl
  | cmpImm hl h hv =>
    refine plain_line ?_ ⟨hr _, hv⟩
    simp only [oneLine_append, oneLine_ofInt, oneLine_target]
    rfl
  | cmpReg hl hr' =>
    refine plain_line ?_ ⟨hr _, hr _, rfl⟩
    simp only [oneLine_append, oneLine_target]
    rfl
  | goto =>
    have hv := hn _ (List.mem_singleton_self _)
    exact List.forall_mem_singleton.2 ⟨hal, isLabel_user hsc.function hv⟩
  | gotoCond h =>
    have hv := hn _ (List.mem_singleton_self _)
    have hc := hC _ (List.mem_singleton_self _)
    exact List.forall_mem_singleton.2 ⟨hc, isLabel_user hsc.function hv⟩
  | label =>
    have hv := hn _ (List.mem_singleton_self _)
    refine plain_remarked ?_ (List.forall_mem_cons.2
      ⟨isLabel_user hsc.function hv, List.forall_mem_singleton.2 trivial⟩)
    simp only [oneLine_append, oneLine_of_isValid hv]
    rfl
  | loadGlobal hd h =>
    have hv := hsc.global _ h
    refine plain_remarked ?_ (List.forall_mem_append.2
      ⟨plain_embedding_global hal (hr _) hv _,
        List.forall_mem_singleton.2 (plain_loadAt (hr _) (hr _))⟩)
    simp only [oneLine_append, oneLine_of_isValid hv, oneLine_target]
    rfl
  | loadSlot hd h =>
    obtain ⟨hv, hi⟩ := hsc.slot h
    refine plain_line ?_ (plain_loadSlot (hr _) rfl hi)
    simp only [oneLine_append, hv, oneLine_target]
    rfl
  | addrGlobal hd h =>
    have hv := hsc.global _ h
    refine plain_remarked ?_ (plain_embedding_global hal (hr _) hv _)
    simp only [oneLine_append, oneLine_of_isValid hv, oneLine_target]
    rfl
  | addrSlot hd h =>
    obtain ⟨hv, hi⟩ := hsc.slot h
    refine plain_line ?_ (plain_addImm (hr _) rfl hi)
    simp only [oneLine_append, hv, oneLine_target]
    rfl
  | loadReg hd hs =>
    refine plain_line ?_ (plain_loadAt (hr _) (hr _))
    simp only [oneLine_append, oneLine_target]
    rfl
  | loadOffset hd hb ho =>
    refine plain_line ?_ ⟨hr _, hr _, hr _, rfl⟩
    simp only [oneLine_append, oneLine_target]
    rfl
  | storeGlobal hs h =>
    have hv := hsc.global _ h
    refine plain_remarked ?_ (plain_storing hal hv (hr _) _)
    simp only [oneLine_append, oneLine_of_isValid hv, oneLine_target]
    rfl
  | storeSlot hs h =>
    obtain ⟨hv, hi⟩ := hsc.slot h
    refine plain_line ?_ (plain_storeSlot (hr _) rfl hi)
    simp only [oneLine_append, hv, oneLine_target]
    rfl
  | storeReg ha hs =>
    refine plain_line ?_ ⟨hr _, hr _, trivial, rfl⟩
    simp only [oneLine_append, oneLine_target]
    rfl
  | storeOffset hb ho hv =>
    refine plain_line ?_ ⟨hr _, hr _, hr _, rfl⟩
    simp only [oneLine_append, oneLine_target]
    rfl
  | setSmall hd h hv =>
    refine plain_line ?_ ⟨hr _, hv⟩
    simp only [oneLine_append, oneLine_ofInt, oneLine_target]
    rfl
  | setWide hd h hv hw =>
    refine plain_remarked ?_ (plain_embedding_data hal (hr _) _ _)
    simp only [oneLine_append, oneLine_ofInt, oneLine_target]
    rfl
  | @shiftLeft _ _ _ k _ hd hs h hk =>
    refine plain_remarked ?_ (plain_doublings (hr _) (hr _) _)
    simp only [oneLine_append, show Text.ofNat k = Text.ofInt k from rfl, oneLine_ofInt,
      oneLine_target]
    rfl
  | @call callee args out _ es t hc ha =>
    have hv := hsc.callee _ _ hc.arity
    have hargs : ∀ e ∈ argumentsRemark args, e.Plain C := by
      unfold argumentsRemark
      split
      · simp
      · exact plain_remarked rfl (by simp)
    have hes := ha.plain hal hsc hc.frame_le (by have := hc.args_le; omega)
    have hcalling : oneLine ("Calling function " ++ callee) = true := by
      simp only [oneLine_append, oneLine_of_isValid hv]
      rfl
    have hg := isLabel_generated (t + 1)
    simp only [List.cons_append, List.nil_append, List.forall_mem_append, List.forall_mem_cons,
      and_assoc]
    exact ⟨plain_comment hcalling, plain_comment rfl, plain_saving hc.frame_le, hargs, hes,
      plain_comment rfl, plain_entering hv _, plain_comment rfl, hg, by simp,
      plain_restoring hc.frame_le _⟩
  | nop => exact List.forall_mem_singleton.2 trivial
  | declare => simp

end Statements

/-- The condition of a jump stands in its code. -/
theorem Lowered.branch_mem {sc : Scope} {st : Statement} {n t : Nat} {es : List Emission} {c : Text}
    (h : Lowered sc st n es t) (hc : c ∈ st.conditions) : ∃ l, .code (.branch c l) ∈ es := by
  cases h with
  | gotoCond h =>
    obtain rfl := List.mem_singleton.1 hc
    exact ⟨_, List.mem_singleton_self _⟩
  | _ => cases hc

end Lowering

/-! ### Programs -/

theorem Statement.locals_subset_names (st : Statement) : st.locals ⊆ st.names := by
  cases st <;> simp [Statement.locals, Statement.names]

namespace Passes

variable {p : Program} (x : Passes p) (o : Options)

/-- What is emitted behind the origin. -/
def behindOrigin : List Emission :=
  (Compilation.prologue o.effective).drop 4 ++ x.data ++ x.code ++ Compilation.epilogue

theorem emissions_eq : x.emissions o =
    .comment "Autogenerated program using fstump" :: .blank :: .comment "Setup and jump" ::
      .origin o.effective.org :: x.behindOrigin o := rfl

variable {C : Text → Prop} (hn : ∀ n ∈ p.names, Name.isValid n = true)

include hn

theorem named_scope {f : Function} (hf : f ∈ p.functions) :
    (Scope.ofFunction x.symbols f).Named := by
  have hfun : ∀ g ∈ p.functions, ∀ n ∈ g.names, Name.isValid n = true := fun g hg n hng =>
    hn n (List.mem_append_right _ (List.mem_flatMap.2 ⟨g, hg, hng⟩))
  refine ⟨hfun f hf _ (by simp [Function.names, Scope.ofFunction]), ?_, ?_, ?_⟩
  · intro n h
    exact hn n (List.mem_append_left _ (x.isGlobal_iff.1 h))
  · intro n k h
    obtain ⟨g, hg, rfl⟩ := List.mem_map.1 (x.mem_functions_of_arity h)
    exact hfun g hg _ (by simp [Function.names])
  · intro n h
    rcases List.mem_append.1 h with h | h
    · exact hfun f hf n (by simp [Function.names, h])
    · obtain ⟨st, hst, h⟩ := List.mem_flatMap.1 h
      refine hfun f hf n (List.mem_append_right _ ?_)
      exact List.mem_flatMap.2 ⟨st, hst, st.locals_subset_names h⟩

/-- **What is emitted behind the origin is plain.** -/
theorem plain (hal : C "al") (hC : ∀ c ∈ p.conditions, C c)
    (he : Name.isValid o.effective.entry = true) : ∀ e ∈ x.behindOrigin o, e.Plain C := by
  have hexit : IsLabel Label.exit := ⟨by decide, by decide, by decide⟩
  have hpointer : IsLabel Label.stackPointer := ⟨by decide, by decide, by decide⟩
  have hstack : IsLabel Label.stack := ⟨by decide, by decide, by decide⟩
  simp only [behindOrigin, List.forall_mem_append, and_assoc]
  refine ⟨?_, ?_, ?_, ?_⟩
  · simp only [Compilation.prologue, List.drop_succ_cons, List.drop_zero, List.forall_mem_cons]
    exact ⟨⟨rfl, .inl rfl⟩, ⟨rfl, .inr rfl⟩, plain_loadAt rfl rfl, ⟨hal, isLabel_function he⟩,
      hpointer, hstack, plain_comment rfl, hexit, trivial, ⟨hal, hexit⟩, by simp⟩
  · intro e hmem
    obtain ⟨name, hname, words, hw⟩ := runs_collect_mem x.collected hmem
    exact plain_globalEmissions (hn name (List.mem_append_left _ hname)) words e hw
  · intro e hmem
    obtain ⟨f, hf, h | rfl | ⟨st, hst, m, gs, l, hl, he⟩⟩ :=
      (runs_lowerFunctions_mem x.generated).1 e hmem
    · have hv := (x.named_scope hn hf).function
      exact plain_functionEnds hv e h
    · exact trivial
    · refine hl.plain hal (x.named_scope hn hf) (fun y hy => hn y ?_) (fun c hc => hC c ?_) e he
      · refine List.mem_append_right _ (List.mem_flatMap.2 ⟨f, hf, List.mem_append_right _ ?_⟩)
        exact List.mem_flatMap.2 ⟨st, hst, hy⟩
      · exact List.mem_flatMap.2 ⟨f, hf, List.mem_flatMap.2 ⟨st, hst, hc⟩⟩
  · simp only [Compilation.epilogue, List.forall_mem_cons]
    exact ⟨trivial, plain_comment rfl, hstack, trivial, by simp⟩

omit hn in
/-- The words of the image are those behind the origin. -/
theorem image_eq :
    (Listing.emitAll {} (x.emissions o)).image = wordsFrom none (x.behindOrigin o) := by
  rw [Listing.image_emitAll, emissions_eq]
  rfl

omit hn in
/-- The text of the listing: remarks, the origin and the lines behind it. -/
theorem text_eq : ∃ remarks : List Line, (∀ l ∈ remarks, l.Readable ∧ l.isCode = false) ∧
    (Listing.emitAll {} (x.emissions o)).text =
      (remarks ++ .origin o.effective.org :: linesFrom none (x.behindOrigin o)).flatMap
        Line.text := by
  refine ⟨[.comment "Autogenerated program using fstump", .blank, .comment "Setup and jump"],
    ?_, ?_⟩
  · simp only [List.forall_mem_cons]
    have h : ∀ t ∈ (["Autogenerated program using fstump", "Setup and jump"] : List Text),
        (10 : UInt8) ∉ t := by decide
    exact ⟨⟨h _ (by simp), rfl⟩, ⟨trivial, rfl⟩, ⟨h _ (by simp), rfl⟩, by simp⟩
  obtain ⟨hlines, hpending⟩ := Listing.lines_emitAll {} (x.emissions o)
  have hwait : (Listing.emitAll {} (x.emissions o)).pending = none :=
    hpending.trans (x.waiting_emissions o)
  rw [Listing.text, hlines, hwait, emissions_eq]
  simp only [Option.getD_none, List.append_nil]
  rfl

include x in
/-- No label is marked twice if no function marks one twice. -/
theorem userLabels_nodup : p.userLabels.Nodup ↔ ∀ f ∈ p.functions, f.labels.Nodup := by
  have hv : ∀ f ∈ p.functions, Name.isValid f.name = true := fun f hf =>
    (x.named_scope hn hf).function
  rw [Program.userLabels, List.nodup_flatMap]
  constructor
  · exact fun h f hf => (h.1 f hf).of_map
  · intro h
    refine ⟨fun f hf => (h f hf).map_on fun a _ b _ he => ?_, ?_⟩
    · exact (Label.user_inj (hv f hf) (hv f hf) he).2
    · refine (List.pairwise_map.1 x.functions_nodup).imp_of_mem fun {f g} hf hg hne l hl hl' => ?_
      obtain ⟨a, -, rfl⟩ := List.mem_map.1 hl
      obtain ⟨b, -, he⟩ := List.mem_map.1 hl'
      exact hne (Label.user_inj (hv f hf) (hv g hg) he.symm).1

/-- **The rules in terms of the program.** -/
theorem clean_iff (he : Name.isValid o.effective.entry = true) :
    Audit.Clean (wordsFrom none (x.behindOrigin o)) ↔
      (∀ f ∈ p.functions, f.labels.Nodup) ∧ ∀ c ∈ p.conditions, c ∈ Audit.conditions := by
  rw [Audit.Clean, and_comm]
  refine and_congr ?_ ⟨?_, ?_⟩
  · have hlabels := x.labels_image o
    rw [image_eq] at hlabels
    rw [hlabels, (x.names_emissions o).nodup_iff, List.nodup_append, ← x.userLabels_nodup hn]
    refine ⟨fun h => h.2.1, fun h => ⟨x.ownLabels_nodup, h, ?_⟩⟩
    rintro l hl _ hu rfl
    exact x.ownLabels_notMem_user hl hu
  · intro h c hc
    obtain ⟨f, hf, hc⟩ := List.mem_flatMap.1 hc
    obtain ⟨st, hst, hc⟩ := List.mem_flatMap.1 hc
    obtain ⟨m, gs, k, hl, hsub⟩ := (runs_lowerFunctions_mem x.generated).2 f hf st hst
    obtain ⟨l, hb⟩ := hl.branch_mem hc
    have hmem : Emission.code (.branch c l) ∈ x.behindOrigin o := by
      simp only [behindOrigin, List.mem_append]
      exact .inl (.inr (hsub hb))
    obtain ⟨y, hy⟩ := exists_word_of_code (p := none) hmem
    exact Instruction.isMnemonic_branch.1 (h _ hy)
  · intro h w hw
    exact (plain_wordsFrom (x.plain o hn (by decide) h he) w hw).isMnemonic

end Passes

/-- **Audits of compiled programs.**  If the names and conditions of a program are well formed and
the origin is neither blank nor broken over lines, the listing can be read, with the origin of the
options.  The audit finds nothing exactly when no function marks a label twice and every condition
is one of the target's; then it counts the words that the compilation counts. -/
theorem audit_compile {p : Program} {o : Options} (h : (compile p o).fault = none)
    (hn : ∀ n ∈ p.names, Name.isValid n = true) (hc : ∀ c ∈ p.conditions, Name.isValid c = true)
    (he : Name.isValid o.effective.entry = true) (hb : o.effective.org.isBlank = false)
    (hl : (10 : UInt8) ∉ o.effective.org) :
    ∃ a, Audit.ofText (compile p o).text = some a ∧ a.origin = o.effective.org.trim ∧
      (a.violations = [] ↔
        (∀ f ∈ p.functions, f.labels.Nodup) ∧ ∀ c ∈ p.conditions, c ∈ Audit.conditions) ∧
      (a.violations = [] → (a.instructions : Int) = (compile p o).stats.instructions) := by
  obtain ⟨x, hx⟩ := compile_emissions h
  obtain ⟨remarks, hremarks, htext⟩ := x.text_eq o
  have hplain := x.plain o (C := fun c => Name.isValid c = true) hn (by decide) hc he
  have hlines : ∀ l ∈ linesFrom none (x.behindOrigin o), l.Readable :=
    readable_linesFrom (fun _ h => h) (by simp) hplain
  obtain ⟨a, ha, hnoted⟩ := Audit.ofText_lines hremarks hb hl hlines
  refine ⟨a, ?_, hnoted.origin, ?_, fun hv => ?_⟩
  · rw [Compilation.text, hx, htext, ha]
  · exact hnoted.clean.trans (x.clean_iff o hn he)
  · rw [Compilation.stats, hx, Listing.words_eq_length_image, x.image_eq, hnoted.instructions hv]
    rfl

/-- Two functions that mark the same label and jump to it, a call between them, and a global. -/
def twoLoops : Program :=
  [.global "count" (.literal { kind := .decimal, text := "300" }),
   .function
    { name := "main"
      body := [.label "top", .cmpImm .r1 { kind := .decimal, text := "-16" }, .gotoCond "ne" "top",
        .call "count_1" [.identifier "count"] .r1, .store "count" .r1] },
   .function
    { name := "count_1", params := ["n"]
      body := [.load .r2 "n", .label "top", .gotoCond "eq" "top"] }]

/-- Options with blanks around the origin. -/
def looseOrigin : Options := { org := " 0x10\t", entry := "main" }

theorem audit_compile_twoLoops :
    (compile twoLoops looseOrigin).fault = none ∧
      (∀ n ∈ twoLoops.names, Name.isValid n = true) ∧
      twoLoops.conditions = ["ne", "eq"] ∧
      ∃ a, Audit.ofText (compile twoLoops looseOrigin).text = some a ∧ a.origin = "0x10" ∧
        a.violations = [] ∧
        (a.instructions : Int) = (compile twoLoops looseOrigin).stats.instructions := by
  have hf : (compile twoLoops looseOrigin).fault = none := by decide
  have hn : ∀ n ∈ twoLoops.names, Name.isValid n = true := by decide
  refine ⟨hf, hn, by decide, ?_⟩
  obtain ⟨a, ha, ho, hv, hi⟩ := audit_compile hf hn (by decide) (by decide) (by decide) (by decide)
  have hclean : a.violations = [] := hv.2 ⟨by decide, by decide⟩
  exact ⟨a, ha, ho.trans (by decide), hclean, hi hclean⟩

end StumpGen
