import StumpGen.Proofs.Emission
import Mathlib.Algebra.Group.Nat.Defs
import Mathlib.Logic.Function.Basic
import Mathlib.Logic.Relation

/-!
# The target machine

The machine has eight registers and `2 ^ 16` words of memory, all of 16 bits.  `r0` reads as zero
and ignores what is written to it, and `r7` is the program counter, so a write to it is a jump.
An `Image` is what a listing loads: its words, one after the other from an origin on.  What the
listing does not settle, such as how an instruction is encoded and what a comparison leaves in
the flags, is a parameter (`Target`), so what is proved here holds for every choice of it.

The machine executes a word only while memory holds it as it was loaded: once it is overwritten
the machine is stuck there.

* `Image.step` : one instruction, `Image.Reaches` : any number of them.
* `Image.Stored` : memory holds a stretch of the image.
* `Image.Stored.run` : what is stored can be executed, and the `exec_*` equations say how, for
  each instruction that code generation uses, with the program counter kept apart.
-/

namespace StumpGen.Machine

open Assembly

/-- A word of the machine. -/
abbrev Word := BitVec 16

/-- What a listing leaves open about the machine. -/
structure Target where
  /-- The word for an instruction at an address. -/
  encode : Word → Instruction → Word
  /-- What a comparison leaves behind. -/
  Flags : Type
  /-- Compares two words. -/
  compare : Word → Word → Flags
  /-- Whether a condition holds. -/
  holds : Text → Flags → Bool

/-- A state of the machine. -/
@[ext] structure State (T : Target) where
  /-- The registers. -/
  regs : Fin 8 → Word
  /-- The memory. -/
  mem : Word → Word
  /-- The flags. -/
  flags : T.Flags

/-- The register that a write goes to. -/
def cell : Reg → Option (Fin 8)
  | .r0 => none
  | .r1 => some 1
  | .r2 => some 2
  | .r3 => some 3
  | .r4 => some 4
  | .r5 => some 5
  | .r6 => some 6
  | .r7 => some 7
  | .other _ => none

theorem cell_inj {r r' : Reg} {c : Fin 8} (h : cell r = some c) (h' : cell r' = some c) :
    r = r' := by
  have hc : cell r = cell r' := h.trans h'.symm
  cases r <;> cases r' <;> simp [cell] at h hc ⊢

/-! ### States -/

namespace State

variable {T : Target} (s : State T)

/-- The contents of a register. -/
def get (r : Reg) : Word := (cell r).elim 0 s.regs

/-- Writes a register. -/
def set (r : Reg) (w : Word) : State T :=
  (cell r).elim s fun c => { s with regs := Function.update s.regs c w }

/-- Writes a word of memory. -/
def write (a w : Word) : State T := { s with mem := Function.update s.mem a w }

/-- Leaves the outcome of a comparison. -/
def setFlags (f : T.Flags) : State T := { s with flags := f }

/-- The address of the next word to be executed. -/
def pc : Word := s.regs 7

/-- Goes on at an address. -/
def jump (a : Word) : State T := { s with regs := Function.update s.regs 7 a }

@[simp] theorem get_r0 : s.get .r0 = 0 := rfl

@[simp] theorem set_r7 (w : Word) : s.set .r7 w = s.jump w := rfl

@[simp] theorem mem_set (r : Reg) (w : Word) : (s.set r w).mem = s.mem := by
  unfold set; cases cell r <;> rfl

@[simp] theorem flags_set (r : Reg) (w : Word) : (s.set r w).flags = s.flags := by
  unfold set; cases cell r <;> rfl

@[simp] theorem mem_jump (a : Word) : (s.jump a).mem = s.mem := rfl

@[simp] theorem flags_jump (a : Word) : (s.jump a).flags = s.flags := rfl

@[simp] theorem pc_jump (a : Word) : (s.jump a).pc = a := by simp [pc, jump]

@[simp] theorem jump_jump (a b : Word) : (s.jump a).jump b = s.jump b := by simp [jump]

theorem jump_pc : s.jump s.pc = s := by simp [jump, pc]

@[simp] theorem mem_write (a w : Word) : (s.write a w).mem = Function.update s.mem a w := rfl

@[simp] theorem flags_write (a w : Word) : (s.write a w).flags = s.flags := rfl

@[simp] theorem regs_write (a w : Word) : (s.write a w).regs = s.regs := rfl

@[simp] theorem get_write (a w : Word) (r : Reg) : (s.write a w).get r = s.get r := rfl

@[simp] theorem mem_setFlags (f : T.Flags) : (s.setFlags f).mem = s.mem := rfl

@[simp] theorem get_setFlags (f : T.Flags) (r : Reg) : (s.setFlags f).get r = s.get r := rfl

theorem get_set_of_isSome {r : Reg} (h : (cell r).isSome = true) (w : Word) :
    (s.set r w).get r = w := by
  obtain ⟨c, hc⟩ := Option.isSome_iff_exists.1 h
  simp [get, set, hc]

theorem get_set_of_ne {r r' : Reg} (h : r ≠ r') (w : Word) : (s.set r w).get r' = s.get r' := by
  cases hc : cell r with
  | none => simp [set, hc]
  | some c =>
    cases hc' : cell r' with
    | none => simp [get, hc']
    | some c' =>
      have hne : c' ≠ c := by rintro rfl; exact h (cell_inj hc hc')
      simp [get, set, hc, hc', hne]

@[simp] theorem set_set (r : Reg) (v w : Word) : (s.set r v).set r w = s.set r w := by
  cases hc : cell r <;> simp [set, hc]

/-- A register that is computed from itself. -/
theorem set_get_set (r : Reg) (v : Word) (f : Word → Word) :
    (s.set r v).set r (f ((s.set r v).get r)) = s.set r (f v) := by
  cases hc : cell r <;> simp [set, get, hc]

theorem set_comm {r r' : Reg} (h : r ≠ r') (v w : Word) :
    (s.set r v).set r' w = (s.set r' w).set r v := by
  cases hc : cell r with
  | none => simp [set, hc]
  | some c =>
    cases hc' : cell r' with
    | none => simp [set, hc']
    | some c' =>
      have hne : c ≠ c' := by rintro rfl; exact h (cell_inj hc hc')
      simp [set, hc, hc', Function.update_comm hne]

theorem get_jump {r : Reg} (h : r ≠ .r7) (a : Word) : (s.jump a).get r = s.get r :=
  s.get_set_of_ne h.symm a

theorem jump_set {r : Reg} (h : r ≠ .r7) (a w : Word) :
    (s.jump a).set r w = (s.set r w).jump a :=
  s.set_comm h.symm a w

theorem set_get (r : Reg) : s.set r (s.get r) = s := by
  cases hc : cell r <;> simp [set, get, hc]

theorem write_set (a v : Word) (r : Reg) (w : Word) :
    (s.write a v).set r w = (s.set r w).write a v := by
  cases hc : cell r <;> simp [set, hc, write]

theorem jump_write (p a w : Word) : (s.jump p).write a w = (s.write a w).jump p := rfl

theorem jump_setFlags (p : Word) (f : T.Flags) :
    (s.jump p).setFlags f = (s.setFlags f).jump p := rfl

end State

/-! ### Images and execution -/

/-- The words of a listing, to be loaded one after the other. -/
structure Image where
  /-- The address of the first word. -/
  origin : Word
  /-- The words with their labels. -/
  words : List (Option Text × Instruction)
  fits : words.length ≤ 2 ^ 16

namespace Image

variable {T : Target} (img : Image)

/-- The address of the `k`-th word. -/
def place (k : Nat) : Word := img.origin + BitVec.ofNat 16 k

/-- What is loaded to an address. -/
def word? (a : Word) : Option Instruction :=
  (img.words[(a - img.origin).toNat]?).map Prod.snd

/-- The address of a label. -/
def address? (l : Text) : Option Word :=
  (img.words.findIdx? fun w => w.1 = some l).map img.place

/-- The contents of a word at an address. -/
def contents? (T : Target) (a : Word) : Instruction → Option Word
  | .data v => some (BitVec.ofInt 16 v)
  | .dataLabel l => img.address? l
  | i => some (T.encode a i)

/-- The address that an operand stands for. -/
def operand (s : State T) (a : Address) : Word :=
  match a.offset with
  | .none => s.get a.base
  | .reg r => s.get a.base + s.get r
  | .imm v => s.get a.base + BitVec.ofInt 16 v

/-- Executes an instruction.  Those that code generation has no use for are left out. -/
def exec (i : Instruction) (s : State T) : Option (State T) :=
  match i with
  | .nop => some s
  | .aluReg .add false d a b .none => some (s.set d (s.get a + s.get b))
  | .aluReg .and false d a b .none => some (s.set d (s.get a &&& s.get b))
  | .aluImm .add false d a v => some (s.set d (s.get a + BitVec.ofInt 16 v))
  | .aluImm .and false d a v => some (s.set d (s.get a &&& BitVec.ofInt 16 v))
  | .movReg false d a .none => some (s.set d (s.get a))
  | .movImm d v => some (s.set d (BitVec.ofInt 16 v))
  | .cmpReg a b .none => some (s.setFlags (T.compare (s.get a) (s.get b)))
  | .cmpImm a v => some (s.setFlags (T.compare (s.get a) (BitVec.ofInt 16 v)))
  | .load d ⟨b, o, .none⟩ => some (s.set d (s.mem (operand s ⟨b, o, .none⟩)))
  | .store v ⟨b, o, .none⟩ => some (s.write (operand s ⟨b, o, .none⟩) (s.get v))
  | .loadLabel d l => (img.address? l).map fun a => s.set d (s.mem a)
  | .storeLabel v l => (img.address? l).map fun a => s.write a (s.get v)
  | .branch c l =>
    (img.address? l).map fun a => if c = "al" ∨ T.holds c s.flags = true then s.jump a else s
  | _ => none

/-- Executes the word that the program counter stands at, if it is still what was loaded. -/
def step (s : State T) : Option (State T) := do
  let i ← img.word? s.pc
  if img.contents? T s.pc i = some (s.mem s.pc) then img.exec i (s.jump (s.pc + 1)) else none

/-- Some number of steps lead from one state to the other. -/
def Reaches : State T → State T → Prop :=
  Relation.ReflTransGen fun s t => img.step s = some t

/-- Memory holds the `k`-th word. -/
def Intact (T : Target) (m : Word → Word) (k : Nat) : Prop :=
  ∃ w, img.words[k]? = some w ∧ img.contents? T (img.place k) w.2 = some (m (img.place k))

/-- Memory right after loading, with zeros around the image. -/
def loaded (T : Target) (a : Word) : Word := ((img.word? a).bind (img.contents? T a)).getD 0

/-- Whether every word that holds an address has one to hold. -/
def linked : Bool :=
  img.words.all fun w => match w.2 with
    | .dataLabel l => (img.address? l).isSome
    | _ => true

/-- The words from the `k`-th on are `ws` and memory holds them. -/
def Stored (T : Target) (m : Word → Word) : Nat → List (Option Text × Instruction) → Prop
  | _, [] => True
  | k, w :: ws => (img.words[k]? = some w ∧
      img.contents? T (img.place k) w.2 = some (m (img.place k))) ∧ Stored T m (k + 1) ws

variable {img}

theorem contents?_data (a : Word) (v : Int) :
    img.contents? T a (.data v) = some (BitVec.ofInt 16 v) := rfl

theorem contents?_dataLabel (a : Word) (l : Text) :
    img.contents? T a (.dataLabel l) = img.address? l := rfl

theorem place_succ (k : Nat) : img.place k + 1 = img.place (k + 1) := by
  simp [place, BitVec.ofNat_add, BitVec.add_assoc]

theorem index_place {k : Nat} (h : k < img.words.length) :
    (img.place k - img.origin).toNat = k := by
  have hk : k < 2 ^ 16 := Nat.lt_of_lt_of_le h img.fits
  rw [place, BitVec.add_comm, BitVec.add_sub_cancel, BitVec.toNat_ofNat, Nat.mod_eq_of_lt hk]

theorem place_inj {j k : Nat} (hj : j < img.words.length) (hk : k < img.words.length)
    (h : img.place j = img.place k) : j = k := by
  rw [← index_place hj, h, index_place hk]

theorem word?_place {k : Nat} {w : Option Text × Instruction} (h : img.words[k]? = some w) :
    img.word? (img.place k) = some w.2 := by
  rw [word?, index_place (List.getElem?_eq_some_iff.1 h).1, h, Option.map_some]

/-- After loading every word is intact. -/
theorem intact_loaded (h : img.linked = true) {k : Nat} (hk : k < img.words.length) :
    img.Intact T (img.loaded T) k := by
  have hget : img.words[k]? = some img.words[k] := List.getElem?_eq_getElem hk
  have hl := List.all_eq_true.1 h _ (List.getElem_mem hk)
  have hc : (img.contents? T (img.place k) img.words[k].2).isSome = true := by
    revert hl
    cases img.words[k].2 <;> exact id
  obtain ⟨c, hc⟩ := Option.isSome_iff_exists.1 hc
  refine ⟨_, hget, ?_⟩
  rw [loaded, word?_place hget, Option.bind_some, hc, Option.getD_some]

/-! ### Stretches of code -/

section Stored

variable {m m' : Word → Word} {k : Nat} {ws vs : List (Option Text × Instruction)}

@[simp] theorem stored_nil : img.Stored T m k [] := trivial

theorem Stored.tail {w : Option Text × Instruction} (h : img.Stored T m k (w :: ws)) :
    img.Stored T m (k + 1) ws := h.2

@[simp] theorem stored_append : img.Stored T m k (ws ++ vs) ↔
    img.Stored T m k ws ∧ img.Stored T m (k + ws.length) vs := by
  induction ws generalizing k with
  | nil => simp
  | cons w ws ih =>
    have hl : k + 1 + ws.length = k + (w :: ws).length := by simp; omega
    simp only [List.cons_append, Stored, ih, hl, and_assoc]

/-- Only the words themselves matter. -/
theorem Stored.congr (h : img.Stored T m k ws)
    (hm : ∀ j, k ≤ j → j < k + ws.length → m' (img.place j) = m (img.place j)) :
    img.Stored T m' k ws := by
  induction ws generalizing k with
  | nil => trivial
  | cons w ws ih =>
    refine ⟨⟨h.1.1, ?_⟩, ih h.2 fun j hj hj' => hm j (by omega) ?_⟩
    · rw [hm k (Nat.le_refl k) (by simp)]; exact h.1.2
    · simp only [List.length_cons]; omega

theorem Stored.lt_length (h : img.Stored T m k ws) {j : Nat} (hj : k ≤ j)
    (hj' : j < k + ws.length) : j < img.words.length := by
  induction ws generalizing k with
  | nil => exact absurd hj' (by simpa using hj)
  | cons w ws ih =>
    rcases Nat.eq_or_lt_of_le hj with rfl | hlt
    · exact (List.getElem?_eq_some_iff.1 h.1.1).1
    · exact ih h.2 hlt (by simp only [List.length_cons] at hj'; omega)

/-- A write to another word of the image leaves the code alone. -/
theorem Stored.write_place (h : img.Stored T m k ws) {i : Nat} (hi : i < img.words.length)
    (hne : i < k ∨ k + ws.length ≤ i) (v : Word) :
    img.Stored T (Function.update m (img.place i) v) k ws := by
  refine h.congr fun j hj hj' => Function.update_of_ne ?_ _ _
  intro e
  have := place_inj (h.lt_length hj hj') hi e
  omega

/-- Words that are in the image and intact are stored. -/
theorem stored_of_intact {pre post : List (Option Text × Instruction)}
    (hw : img.words = pre ++ ws ++ post)
    (h : ∀ j, pre.length ≤ j → j < pre.length + ws.length → img.Intact T m j) :
    img.Stored T m pre.length ws := by
  induction ws generalizing pre with
  | nil => trivial
  | cons w ws ih =>
    have hget : img.words[pre.length]? = some w := by simp [hw]
    obtain ⟨w', hw', hc⟩ := h pre.length (Nat.le_refl _) (by simp)
    obtain rfl : w = w' := Option.some.inj (hget.symm.trans hw')
    refine ⟨⟨hget, hc⟩, ?_⟩
    have hrec := @ih (pre ++ [w]) (by simp [hw]) fun j hj hj' =>
      h j (by simp at hj; omega) (by simp at hj' ⊢; omega)
    simpa using hrec

end Stored

/-! ### One step -/

section Run

variable {s t : State T} {k : Nat} {l : Option Text} {i : Instruction}
  {ws : List (Option Text × Instruction)}

/-- **A stored word is executed.** -/
theorem Stored.run (h : img.Stored T s.mem k ((l, i) :: ws))
    (hx : img.exec i (s.jump (img.place (k + 1))) = some t) :
    img.Reaches (s.jump (img.place k)) t := by
  refine Relation.ReflTransGen.single ?_
  simp only [step, State.pc_jump, word?_place h.1.1, State.mem_jump, Option.bind_eq_bind,
    Option.bind_some, h.1.2, if_true, State.jump_jump, place_succ, hx]

theorem Reaches.trans {u : State T} (h : img.Reaches s t) (h' : img.Reaches t u) :
    img.Reaches s u :=
  Relation.ReflTransGen.trans h h'

end Run

section Exec

variable (s : State T) {d a b : Reg} (p : Word)

theorem exec_nop : img.exec .nop (s.jump p) = some (s.jump p) := rfl

theorem exec_addReg (hd : d ≠ .r7) (ha : a ≠ .r7) (hb : b ≠ .r7) :
    img.exec (.addReg d a b) (s.jump p) = some ((s.set d (s.get a + s.get b)).jump p) := by
  change some (State.set _ _ _) = _
  rw [s.get_jump ha, s.get_jump hb, s.jump_set hd]

theorem exec_andReg (hd : d ≠ .r7) (ha : a ≠ .r7) (hb : b ≠ .r7) :
    img.exec (.andReg d a b) (s.jump p) = some ((s.set d (s.get a &&& s.get b)).jump p) := by
  change some (State.set _ _ _) = _
  rw [s.get_jump ha, s.get_jump hb, s.jump_set hd]

theorem exec_addImm (hd : d ≠ .r7) (ha : a ≠ .r7) (v : Int) :
    img.exec (.addImm d a v) (s.jump p)
      = some ((s.set d (s.get a + BitVec.ofInt 16 v)).jump p) := by
  change some (State.set _ _ _) = _
  rw [s.get_jump ha, s.jump_set hd]

theorem exec_andImm (hd : d ≠ .r7) (ha : a ≠ .r7) (v : Int) :
    img.exec (.andImm d a v) (s.jump p)
      = some ((s.set d (s.get a &&& BitVec.ofInt 16 v)).jump p) := by
  change some (State.set _ _ _) = _
  rw [s.get_jump ha, s.jump_set hd]

theorem exec_move (hd : d ≠ .r7) (ha : a ≠ .r7) :
    img.exec (.move d a) (s.jump p) = some ((s.set d (s.get a)).jump p) := by
  change some (State.set _ _ _) = _
  rw [s.get_jump ha, s.jump_set hd]

theorem exec_move_r7 (ha : a ≠ .r7) :
    img.exec (.move .r7 a) (s.jump p) = some (s.jump (s.get a)) := by
  change some (State.set _ _ _) = _
  rw [s.get_jump ha, State.set_r7, State.jump_jump]

theorem exec_movImm (hd : d ≠ .r7) (v : Int) :
    img.exec (.movImm d v) (s.jump p) = some ((s.set d (BitVec.ofInt 16 v)).jump p) :=
  congrArg some (s.jump_set hd _ _)

theorem exec_cmpReg (ha : a ≠ .r7) (hb : b ≠ .r7) :
    img.exec (.cmpReg a b .none) (s.jump p)
      = some ((s.setFlags (T.compare (s.get a) (s.get b))).jump p) := by
  change some (State.setFlags _ _) = _
  rw [s.get_jump ha, s.get_jump hb, s.jump_setFlags]

theorem exec_cmpImm (ha : a ≠ .r7) (v : Int) :
    img.exec (.cmpImm a v) (s.jump p)
      = some ((s.setFlags (T.compare (s.get a) (BitVec.ofInt 16 v))).jump p) := by
  change some (State.setFlags _ _) = _
  rw [s.get_jump ha, s.jump_setFlags]

theorem exec_loadAt (hd : d ≠ .r7) (ha : a ≠ .r7) :
    img.exec (.loadAt d a) (s.jump p) = some ((s.set d (s.mem (s.get a))).jump p) := by
  change some (State.set _ _ (s.mem ((s.jump p).get a))) = _
  rw [s.get_jump ha, s.jump_set hd]

theorem exec_loadSlot (hd : d ≠ .r7) (ha : a ≠ .r7) (v : Int) :
    img.exec (.loadSlot d a v) (s.jump p)
      = some ((s.set d (s.mem (s.get a + BitVec.ofInt 16 v))).jump p) := by
  change some (State.set _ _ (s.mem ((s.jump p).get a + _))) = _
  rw [s.get_jump ha, s.jump_set hd]

theorem exec_loadReg (hd : d ≠ .r7) (ha : a ≠ .r7) (hb : b ≠ .r7) :
    img.exec (.load d { base := a, offset := .reg b }) (s.jump p)
      = some ((s.set d (s.mem (s.get a + s.get b))).jump p) := by
  change some (State.set _ _ (s.mem ((s.jump p).get a + (s.jump p).get b))) = _
  rw [s.get_jump ha, s.get_jump hb, s.jump_set hd]

theorem exec_storeAt (hd : d ≠ .r7) (ha : a ≠ .r7) :
    img.exec (.storeAt d a) (s.jump p) = some ((s.write (s.get a) (s.get d)).jump p) := by
  change some (State.write _ ((s.jump p).get a) _) = _
  rw [s.get_jump ha, s.get_jump hd, s.jump_write]

theorem exec_storeSlot (hd : d ≠ .r7) (ha : a ≠ .r7) (v : Int) :
    img.exec (.storeSlot d a v) (s.jump p)
      = some ((s.write (s.get a + BitVec.ofInt 16 v) (s.get d)).jump p) := by
  change some (State.write _ ((s.jump p).get a + _) _) = _
  rw [s.get_jump ha, s.get_jump hd, s.jump_write]

theorem exec_storeReg (hd : d ≠ .r7) (ha : a ≠ .r7) (hb : b ≠ .r7) :
    img.exec (.store d { base := a, offset := .reg b }) (s.jump p)
      = some ((s.write (s.get a + s.get b) (s.get d)).jump p) := by
  change some (State.write _ ((s.jump p).get a + (s.jump p).get b) _) = _
  rw [s.get_jump ha, s.get_jump hb, s.get_jump hd, s.jump_write]

theorem exec_loadLabel (hd : d ≠ .r7) {l : Text} {w : Word} (h : img.address? l = some w) :
    img.exec (.loadLabel d l) (s.jump p) = some ((s.set d (s.mem w)).jump p) := by
  change (img.address? l).map _ = _
  rw [h, Option.map_some, s.jump_set hd, State.mem_jump]

theorem exec_storeLabel (hd : d ≠ .r7) {l : Text} {w : Word} (h : img.address? l = some w) :
    img.exec (.storeLabel d l) (s.jump p) = some ((s.write w (s.get d)).jump p) := by
  change (img.address? l).map _ = _
  rw [h, Option.map_some, s.get_jump hd, s.jump_write]

theorem exec_jump {l : Text} {w : Word} (h : img.address? l = some w) :
    img.exec (.jump l) (s.jump p) = some (s.jump w) := by
  change (img.address? l).map _ = _
  rw [h, Option.map_some, if_pos (Or.inl rfl), State.jump_jump]

end Exec

end Image

end StumpGen.Machine
