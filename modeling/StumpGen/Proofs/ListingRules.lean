import StumpGen.Proofs.ListingLines
import StumpGen.Proofs.LiteralGrammar

/-!
# What the check of a listing decides

`Audit.ofText` reads a listing once, line by line, and mends what it knows as it goes on: after
a missing origin it acts as if there were one, a label that is defined again keeps its first
line, and a line with two labels is not counted.  Here its verdict is compared with rules that
know no such order.

* `Audit.Rules` states the rules for all lines at once: there is at most one origin and it
  stands in front of all code, every line of code has an instruction with at most one label in
  front of it, no two lines have the same label, and immediate numbers fit their field.
* `Audit.rules_append_iff`: one line more keeps the rules if the lines in front of it admit it.
* `Audit.operand_cases`, `Audit.code_violations`, `Audit.setOrigin_violations`: when a line
  breaks a rule.
* `Audit.Tracks.step`, `Audit.Tracks.steps`: an audit tells whether the lines read so far obey
  the rules, and knows these lines if they do.
* `Audit.ofText_decides_rules`: the verdict on whole listings.
-/

namespace StumpGen

namespace Audit

/-! ### The rules -/

/-- The line with the number `n`, counted from one, sets the origin. -/
def OriginAt (ls : List Text) (n : Nat) : Prop := ∃ l, (l, n) ∈ ls.zipIdx 1 ∧ IsOrigin l

/-- The line with the number `n` is one of code, with the words `ws`. -/
def CodeAt (ls : List Text) (n : Nat) (ws : List Text) : Prop :=
  ∃ l, (l, n) ∈ ls.zipIdx 1 ∧ IsCode l ∧ words l = ws

/-- The words are a label, if there is one, an instruction and its operands. -/
def Parses (ws : List Text) (x : Option Text) (ops : List Text) : Prop :=
  ∃ m, isMnemonic m = true ∧ (∀ y ∈ x, isMnemonic y = false) ∧ ws = x.toList ++ m :: ops

/-- The line with the number `n` has the label `x`. -/
def LabelAt (ls : List Text) (n : Nat) (x : Text) : Prop :=
  ∃ ws ops, CodeAt ls n ws ∧ Parses ws (some x) ops

/-- Some line of code has the operand `w`. -/
def HasOperand (ls : List Text) (w : Text) : Prop :=
  ∃ n ws x ops, CodeAt ls n ws ∧ Parses ws x ops ∧ w ∈ ops

/-- An operand that fits its field, if it is an immediate number. -/
def IsFitting (w : Text) : Prop :=
  ∀ s v, dropBrackets w = 35 :: s → Numeral.Reads 10 s v → Numeral.Fits v → -16 ≤ v ∧ v ≤ 15

/-- **The rules** for the lines of a listing, whatever the order in which they are read. -/
structure Rules (ls : List Text) : Prop where
  /-- There is at most one origin. -/
  origin_unique : ∀ m n, OriginAt ls m → OriginAt ls n → m = n
  /-- The origin stands in front of all code. -/
  origin_first : ∀ n ws, CodeAt ls n ws → ∃ m < n, OriginAt ls m
  /-- A line of code has an instruction, and at most one label in front of it. -/
  parses : ∀ n ws, CodeAt ls n ws → ∃ x ops, Parses ws x ops
  /-- No two lines have the same label. -/
  label_unique : ∀ x m n, LabelAt ls m x → LabelAt ls n x → m = n
  /-- The immediate operands fit their field. -/
  fitting : ∀ w, HasOperand ls w → IsFitting w

section Append

variable {ls : List Text} {l : Text} {n : Nat}

theorem mem_zipIdx_append {x : Text} :
    (x, n) ∈ (ls ++ [l]).zipIdx 1 ↔ (x, n) ∈ ls.zipIdx 1 ∨ n = ls.length + 1 ∧ x = l := by
  rw [List.zipIdx_append, List.mem_append, List.zipIdx_singleton, List.mem_singleton,
    Prod.mk.injEq, Nat.add_comm, and_comm (a := x = l)]

theorem originAt_append :
    OriginAt (ls ++ [l]) n ↔ OriginAt ls n ∨ n = ls.length + 1 ∧ IsOrigin l := by
  simp only [OriginAt, mem_zipIdx_append]
  grind

theorem codeAt_append {ws : List Text} :
    CodeAt (ls ++ [l]) n ws ↔ CodeAt ls n ws ∨ n = ls.length + 1 ∧ IsCode l ∧ words l = ws := by
  simp only [CodeAt, mem_zipIdx_append]
  grind

theorem labelAt_append {x : Text} :
    LabelAt (ls ++ [l]) n x ↔
      LabelAt ls n x ∨ n = ls.length + 1 ∧ IsCode l ∧ ∃ ops, Parses (words l) (some x) ops := by
  simp only [LabelAt, codeAt_append]
  grind

theorem hasOperand_append {w : Text} :
    HasOperand (ls ++ [l]) w ↔
      HasOperand ls w ∨ IsCode l ∧ ∃ x ops, Parses (words l) x ops ∧ w ∈ ops := by
  simp only [HasOperand, codeAt_append]
  grind

theorem OriginAt.le (h : OriginAt ls n) : n ≤ ls.length := by
  obtain ⟨l, hl, -⟩ := h
  have := List.mem_zipIdx hl
  omega

theorem CodeAt.le {ws : List Text} (h : CodeAt ls n ws) : n ≤ ls.length := by
  obtain ⟨l, hl, -⟩ := h
  have := List.mem_zipIdx hl
  omega

theorem LabelAt.le {x : Text} (h : LabelAt ls n x) : n ≤ ls.length := by
  obtain ⟨ws, ops, hc, -⟩ := h
  exact hc.le

/-- The words of a line can be read in one way only. -/
theorem Parses.unique {ws : List Text} {x y : Option Text} {ops ops' : List Text}
    (h : Parses ws x ops) (h' : Parses ws y ops') : x = y ∧ ops = ops' := by
  obtain ⟨m, hm, hx, rfl⟩ := h
  obtain ⟨m', hm', hy, he⟩ := h'
  cases x <;> cases y <;> simp_all

end Append

/-- What a line must be like, if those in front of it obey the rules. -/
structure Admits (ls : List Text) (l : Text) : Prop where
  origin : IsOrigin l → ∀ m, ¬ OriginAt ls m
  code : IsCode l → (∃ m, OriginAt ls m) ∧ ∃ x ops, Parses (words l) x ops ∧
    (∀ y ∈ x, ∀ m, ¬ LabelAt ls m y) ∧ ∀ w ∈ ops, IsFitting w

theorem Rules.of_append {ls : List Text} {l : Text} (h : Rules (ls ++ [l])) : Rules ls where
  origin_unique m n hm hn := h.origin_unique m n (originAt_append.2 (.inl hm))
    (originAt_append.2 (.inl hn))
  origin_first n ws hc := by
    obtain ⟨m, hlt, hm⟩ := h.origin_first n ws (codeAt_append.2 (.inl hc))
    obtain hm | ⟨rfl, -⟩ := originAt_append.1 hm
    · exact ⟨m, hlt, hm⟩
    · have := hc.le
      omega
  parses n ws hc := h.parses n ws (codeAt_append.2 (.inl hc))
  label_unique x m n hm hn := h.label_unique x m n (labelAt_append.2 (.inl hm))
    (labelAt_append.2 (.inl hn))
  fitting w hw := h.fitting w (hasOperand_append.2 (.inl hw))

theorem Rules.admits {ls : List Text} {l : Text} (h : Rules (ls ++ [l])) : Admits ls l where
  origin ho m hm := by
    have he := h.origin_unique m _ (originAt_append.2 (.inl hm))
      (originAt_append.2 (.inr ⟨rfl, ho⟩))
    have := hm.le
    omega
  code hc := by
    have hat := codeAt_append.2 (.inr ⟨rfl, hc, rfl⟩ : CodeAt ls _ _ ∨ _)
    obtain ⟨m, hlt, hm⟩ := h.origin_first _ _ hat
    obtain ⟨x, ops, hp⟩ := h.parses _ _ hat
    refine ⟨⟨m, ?_⟩, x, ops, hp, ?_, ?_⟩
    · exact (originAt_append.1 hm).resolve_right fun hl => hc.2 hl.2
    · rintro y rfl k hk
      have he := h.label_unique y k _ (labelAt_append.2 (.inl hk)) ⟨_, ops, hat, hp⟩
      have := hk.le
      omega
    · exact fun w hw => h.fitting w ⟨_, _, x, ops, hat, hp, hw⟩

theorem Rules.append {ls : List Text} {l : Text} (h : Rules ls) (ha : Admits ls l) :
    Rules (ls ++ [l]) where
  origin_unique m n hm hn := by
    rw [originAt_append] at hm hn
    obtain hm | ⟨rfl, hl⟩ := hm
    · obtain hn | ⟨rfl, hl⟩ := hn
      · exact h.origin_unique m n hm hn
      · exact absurd hm (ha.origin hl m)
    · obtain hn | ⟨rfl, -⟩ := hn
      · exact absurd hn (ha.origin hl n)
      · rfl
  origin_first n ws hc := by
    obtain hc | ⟨rfl, hl, -⟩ := codeAt_append.1 hc
    · obtain ⟨m, hlt, hm⟩ := h.origin_first n ws hc
      exact ⟨m, hlt, originAt_append.2 (.inl hm)⟩
    · obtain ⟨m, hm⟩ := (ha.code hl).1
      exact ⟨m, Nat.lt_succ_of_le hm.le, originAt_append.2 (.inl hm)⟩
  parses n ws hc := by
    obtain hc | ⟨rfl, hl, rfl⟩ := codeAt_append.1 hc
    · exact h.parses n ws hc
    · obtain ⟨-, x, ops, hp, -⟩ := ha.code hl
      exact ⟨x, ops, hp⟩
  label_unique x m n hm hn := by
    -- a label of the new line is none of the lines in front of it
    have hnew : ∀ k, LabelAt ls k x → IsCode l → ¬ ∃ ops, Parses (words l) (some x) ops := by
      rintro k hk hl ⟨ops, hp⟩
      obtain ⟨-, y, ops', hp', hy, -⟩ := ha.code hl
      obtain rfl := (hp'.unique hp).1
      exact hy x rfl k hk
    rw [labelAt_append] at hm hn
    obtain hm | ⟨rfl, hl, hp⟩ := hm
    · obtain hn | ⟨rfl, hl, hp⟩ := hn
      · exact h.label_unique x m n hm hn
      · exact absurd hp (hnew m hm hl)
    · obtain hn | ⟨rfl, -⟩ := hn
      · exact absurd hp (hnew n hn hl)
      · rfl
  fitting w hw := by
    obtain hw | ⟨hl, x, ops, hp, hw⟩ := hasOperand_append.1 hw
    · exact h.fitting w hw
    · obtain ⟨-, y, ops', hp', -, hfit⟩ := ha.code hl
      obtain rfl := (hp'.unique hp).2
      exact hfit w hw

/-- **The rules line by line**: a listing obeys them if its lines but the last do and admit
the last one. -/
theorem rules_append_iff {ls : List Text} {l : Text} :
    Rules (ls ++ [l]) ↔ Rules ls ∧ Admits ls l :=
  ⟨fun h => ⟨h.of_append, h.admits⟩, fun h => h.1.append h.2⟩

/-! ### Operands -/

/-- The registers. -/
def registers : List Text := ["r0", "r1", "r2", "r3", "r4", "r5", "r6", "r7"]

/-- An operand without brackets at its ends and without the mark of an immediate. -/
def bare (w : Text) : Text :=
  if (dropBrackets w).head? = some 35 then (dropBrackets w).tail else dropBrackets w

/-- A text that stands for a label: there is nothing else that it can be. -/
structure IsReference (w : Text) : Prop where
  ne_nil : w ≠ []
  not_register : w ∉ registers
  not_shift : w ∉ shifts
  not_number : ∀ v, Numeral.Reads 10 w v → ¬ Numeral.Fits v

theorem isRegister_iff {w : Text} : isRegister w = true ↔ w ∈ registers := by
  constructor
  · intro h
    have key : ∀ k : Fin 8, [114, UInt8.ofNat (48 + k.val)] ∈ registers := by decide
    fun_cases isRegister w with
    | case1 a b =>
      simp only [isRegister, Bool.and_eq_true, beq_iff_eq, decide_eq_true_eq,
        UInt8.le_iff_toNat_le, UInt8.reduceToNat] at h
      obtain ⟨⟨rfl, h₁⟩, h₂⟩ := h
      have hb := key ⟨b.toNat - 48, by omega⟩
      rwa [show 48 + (b.toNat - 48) = b.toNat by omega, UInt8.ofNat_toNat] at hb
    | case2 => simp [isRegister] at h
  · have key : ∀ r ∈ registers, isRegister r = true := by decide
    exact key w

theorem isFitting_of_ne {w : Text} (h : (dropBrackets w).head? ≠ some 35) : IsFitting w := by
  intro s v hs
  rw [hs] at h
  exact absurd rfl h

theorem isFitting_iff {w : Text} (h : (dropBrackets w).head? = some 35) :
    IsFitting w ↔ ∀ v, Numeral.readInt 10 (bare w) = .ok v → -16 ≤ v ∧ v ≤ 15 := by
  obtain ⟨s, hs⟩ := List.head?_eq_some_iff.1 h
  have hb : bare w = s := by rw [bare, if_pos h, hs, List.tail_cons]
  constructor
  · intro hf v hv
    rw [hb, Numeral.readInt_eq_ok] at hv
    exact hf s v hs hv.1 hv.2
  · intro hf s' v hs' hr hfit
    obtain rfl : s = s' := (List.cons.inj (hs.symm.trans hs')).2
    exact hf v (by rw [hb, Numeral.readInt_eq_ok]; exact ⟨hr, hfit⟩)

theorem isReference_iff {w : Text} :
    IsReference w ↔ (∃ e, Numeral.readInt 10 w = .error e) ∧
      (isRegister w || shifts.contains w || w.isEmpty) = false := by
  have hnum : (∃ e, Numeral.readInt 10 w = .error e) ↔
      ∀ v, Numeral.Reads 10 w v → ¬ Numeral.Fits v := by
    cases hw : Numeral.readInt 10 w with
    | error e =>
      refine iff_of_true ⟨e, rfl⟩ fun v hr hf => ?_
      rw [Numeral.readInt_eq_ok.2 ⟨hr, hf⟩] at hw
      cases hw
    | ok v =>
      obtain ⟨hr, hf⟩ := Numeral.readInt_eq_ok.1 hw
      refine iff_of_false ?_ fun h => h v hr hf
      rintro ⟨e, he⟩
      cases he
  have hreg : isRegister w = false ↔ w ∉ registers := by
    rw [← isRegister_iff, Bool.not_eq_true]
  simp only [hnum, Bool.or_eq_false_iff, hreg, List.contains_eq_mem, decide_eq_false_iff_not,
    List.isEmpty_eq_false_iff]
  exact ⟨fun h => ⟨h.not_number, ⟨h.not_register, h.not_shift⟩, h.ne_nil⟩,
    fun h => ⟨h.2.2, h.2.1.1, h.2.1.2, h.1⟩⟩

theorem operand_of_ok {w : Text} {v : Int} (h : Numeral.readInt 10 (bare w) = .ok v) (n : Nat)
    (a : Audit) : operand n a w =
      if (dropBrackets w).head? = some 35 ∧ (v < -16 ∨ 15 < v) then a.fail n (.immediate v)
      else a := by
  rw [bare] at h
  unfold operand
  simp only [beq_iff_eq, h, minImm, maxImm]

theorem operand_of_error {w : Text} {e : Numeral.Fault}
    (h : Numeral.readInt 10 (bare w) = .error e) (n : Nat) (a : Audit) : operand n a w =
      if isRegister (bare w) || shifts.contains (bare w) || (bare w).isEmpty then a
      else a.use n (bare w) := by
  rw [bare] at h ⊢
  unfold operand
  simp only [beq_iff_eq, h]

/-- **An operand** breaks a rule, is noted as a reference, or says nothing. -/
theorem operand_cases (n : Nat) (a : Audit) (w : Text) :
    (¬ IsFitting w ∧ ¬ IsReference (bare w) ∧ ∃ v, operand n a w = a.fail n (.immediate v)) ∨
      (IsFitting w ∧ IsReference (bare w) ∧ operand n a w = a.use n (bare w)) ∨
      (IsFitting w ∧ ¬ IsReference (bare w) ∧ operand n a w = a) := by
  cases hw : Numeral.readInt 10 (bare w) with
  | ok v =>
    have href : ¬ IsReference (bare w) := by simp [isReference_iff, hw]
    rw [operand_of_ok hw]
    by_cases hi : (dropBrackets w).head? = some 35
    · have hfit : IsFitting w ↔ -16 ≤ v ∧ v ≤ 15 := by simp [isFitting_iff hi, hw]
      by_cases hv : -16 ≤ v ∧ v ≤ 15
      · exact .inr (.inr ⟨hfit.2 hv, href, if_neg (by omega)⟩)
      · exact .inl ⟨mt hfit.1 hv, href, v, if_pos ⟨hi, by omega⟩⟩
    · exact .inr (.inr ⟨isFitting_of_ne hi, href, if_neg fun h => hi h.1⟩)
  | error e =>
    have hfit : IsFitting w := by
      by_cases hi : (dropBrackets w).head? = some 35
      · simp [isFitting_iff hi, hw]
      · exact isFitting_of_ne hi
    rw [operand_of_error hw]
    by_cases hr : IsReference (bare w)
    · refine .inr (.inl ⟨hfit, hr, ?_⟩)
      rw [(isReference_iff.1 hr).2, if_neg Bool.false_ne_true]
    · refine .inr (.inr ⟨hfit, hr, if_pos ?_⟩)
      rw [← Bool.not_eq_false]
      exact fun hf => hr (isReference_iff.2 ⟨⟨e, hw⟩, hf⟩)

/-- The names of the labels in use. -/
def usedNames (a : Audit) : List Text := a.uses.map Prod.fst

theorem mem_usedNames_use (a : Audit) (n : Nat) (x w : Text) :
    w ∈ (a.use n x).usedNames ↔ w ∈ a.usedNames ∨ w = x := by
  unfold use
  split
  · rename_i h
    have hx : x ∈ a.usedNames := by
      by_contra hx
      rw [Text.lookup_eq_none_iff.2 hx] at h
      cases h
    grind
  · simp [usedNames]

theorem nodup_usedNames_use {a : Audit} (h : a.usedNames.Nodup) (n : Nat) (x : Text) :
    (a.use n x).usedNames.Nodup := by
  unfold use
  split
  · exact h
  · rename_i hx
    rw [Option.not_isSome_iff_eq_none, Text.lookup_eq_none_iff] at hx
    simp only [usedNames, List.map_append, List.map_cons, List.map_nil]
    exact (List.perm_append_singleton _ _).nodup_iff.2 (List.nodup_cons.2 ⟨hx, h⟩)

/-- What the operands of a line change: the violations and the labels in use. -/
structure OperandsNoted (ops : List Text) (a b : Audit) : Prop where
  originSeen : b.originSeen = a.originSeen
  labels : b.labels = a.labels
  instructions : b.instructions = a.instructions
  violations : b.violations = [] ↔ a.violations = [] ∧ ∀ w ∈ ops, IsFitting w
  usedNames : ∀ x, x ∈ b.usedNames ↔ x ∈ a.usedNames ∨ ∃ w ∈ ops, bare w = x ∧ IsReference x
  nodup : a.usedNames.Nodup → b.usedNames.Nodup

theorem operandsNoted_singleton (n : Nat) (a : Audit) (w : Text) :
    OperandsNoted [w] a (operand n a w) := by
  -- what is no reference adds no name
  have hsame (hr : ¬ IsReference (bare w)) (x : Text) :
      x ∈ a.usedNames ↔ x ∈ a.usedNames ∨ ∃ v ∈ [w], bare v = x ∧ IsReference x := by
    simp only [List.mem_singleton, exists_eq_left]
    refine ⟨.inl, fun h => h.resolve_right ?_⟩
    rintro ⟨rfl, h⟩
    exact hr h
  obtain ⟨hf, hr, v, he⟩ | ⟨hf, hr, he⟩ | ⟨hf, hr, he⟩ := operand_cases n a w
  · rw [he]
    exact ⟨rfl, rfl, rfl, by simp [fail, hf], hsame hr, id⟩
  · have hx := mem_usedNames_use a n (bare w)
    have hn := nodup_usedNames_use (a := a) (n := n) (x := bare w)
    rw [he]
    obtain ⟨us, hu⟩ := exists_use a n (bare w)
    rw [hu] at hx hn ⊢
    refine ⟨rfl, rfl, rfl, by simp [hf], fun x => ?_, hn⟩
    rw [hx]
    simp only [List.mem_singleton, exists_eq_left]
    grind
  · rw [he]
    exact ⟨rfl, rfl, rfl, by simp [hf], hsame hr, id⟩

/-- **The operands of a line**, one after another. -/
theorem operandsNoted_foldl (n : Nat) (ops : List Text) (a : Audit) :
    OperandsNoted ops a (ops.foldl (operand n) a) := by
  induction ops generalizing a with
  | nil => exact ⟨rfl, rfl, rfl, by simp, by simp, id⟩
  | cons w ops ih =>
    have h₁ := operandsNoted_singleton n a w
    have h₂ := ih (operand n a w)
    rw [List.foldl_cons]
    exact {
      originSeen := h₂.originSeen.trans h₁.originSeen
      labels := h₂.labels.trans h₁.labels
      instructions := h₂.instructions.trans h₁.instructions
      violations := by
        rw [h₂.violations, h₁.violations, and_assoc]
        simp
      usedNames := by
        intro x
        rw [h₂.usedNames, h₁.usedNames, or_assoc]
        simp
      nodup := fun h => h₂.nodup (h₁.nodup h) }

/-! ### Instructions and labels -/

theorem instruction_violations (a : Audit) (n : Nat) (ops : List Text) :
    (a.instruction n ops).violations = [] ↔
      a.violations = [] ∧ a.originSeen = true ∧ ∀ w ∈ ops, IsFitting w := by
  unfold instruction
  rw [(operandsNoted_foldl n ops _).violations]
  cases h : a.originSeen <;> simp [fail]

/-- The audit after the label of a line, if it has one. -/
def defineLabel (a : Audit) (n : Nat) (x : Option Text) : Audit := x.elim a (a.define n)

theorem defineLabel_originSeen (a : Audit) (n : Nat) (x : Option Text) :
    (a.defineLabel n x).originSeen = a.originSeen := by
  cases x with
  | none => rfl
  | some y => exact (define_frame n y).1

theorem defineLabel_violations (a : Audit) (n : Nat) (x : Option Text) :
    (a.defineLabel n x).violations = [] ↔
      a.violations = [] ∧ ∀ y ∈ x, a.labels.lookup y = none := by
  cases x with
  | none => simp [defineLabel]
  | some y =>
    have h : a.defineLabel n (some y) = a.define n y := rfl
    simp only [h, define, Option.mem_some_iff, forall_eq']
    cases a.labels.lookup y <;> simp [fail]

theorem code_of_parses {ws ops : List Text} {x : Option Text} (h : Parses ws x ops) (a : Audit)
    (n : Nat) : a.code n ws = some ((a.defineLabel n x).instruction n ops) := by
  obtain ⟨m, hm, hx, rfl⟩ := h
  cases x with
  | none => exact if_pos hm
  | some y =>
    have hy : isMnemonic y = false := hx y rfl
    rw [Option.toList_some, List.singleton_append, code, hy, if_neg Bool.false_ne_true]
    exact if_pos hm

theorem code_of_not_parses {ws : List Text} (h : ∀ x ops, ¬ Parses ws x ops) {a b : Audit}
    {n : Nat} (hb : a.code n ws = some b) : b.violations ≠ [] := by
  cases ws with
  | nil => cases hb
  | cons w ws =>
    have hw : isMnemonic w = false := by
      rw [← Bool.not_eq_true]
      exact fun hw => h none ws ⟨w, hw, by simp, rfl⟩
    rw [code, hw, if_neg Bool.false_ne_true] at hb
    cases ws with
    | nil =>
      rw [← Option.some.inj hb]
      exact violations_fail n _
    | cons v vs =>
      have hv : isMnemonic v = false := by
        rw [← Bool.not_eq_true]
        exact fun hv => h (some w) vs ⟨v, hv, by simpa using hw, rfl⟩
      simp only [hv, Bool.false_eq_true, ↓reduceIte] at hb
      rw [← Option.some.inj hb]
      exact violations_fail n _

/-- **A line of code** breaks no rule if its words can be read, an origin was seen, its label is
a new one, and its operands fit. -/
theorem code_violations {ws : List Text} {a b : Audit} {n : Nat} (hb : a.code n ws = some b) :
    b.violations = [] ↔ a.violations = [] ∧ a.originSeen = true ∧
      ∃ x ops, Parses ws x ops ∧ (∀ y ∈ x, a.labels.lookup y = none) ∧ ∀ w ∈ ops, IsFitting w := by
  by_cases h : ∃ x ops, Parses ws x ops
  · obtain ⟨x, ops, hp⟩ := h
    rw [code_of_parses hp] at hb
    rw [← Option.some.inj hb, instruction_violations, defineLabel_violations,
      defineLabel_originSeen]
    constructor
    · rintro ⟨⟨ha, hx⟩, ho, hf⟩
      exact ⟨ha, ho, x, ops, hp, hx, hf⟩
    · rintro ⟨ha, ho, y, ops', hp', hy, hf⟩
      obtain ⟨rfl, rfl⟩ := hp.unique hp'
      exact ⟨⟨ha, hy⟩, ho, hf⟩
  · push Not at h
    refine iff_of_false (code_of_not_parses h hb) ?_
    rintro ⟨-, -, x, ops, hp, -⟩
    exact h x ops hp

theorem setOrigin_violations (a : Audit) (n : Nat) (o : Text) :
    (a.setOrigin n o).violations = [] ↔
      a.violations = [] ∧ a.originSeen = false ∧ a.instructions = 0 := by
  unfold setOrigin
  cases a.originSeen <;> by_cases hi : 0 < a.instructions <;> simp [fail, hi] <;> omega

/-! ### What an audit knows of the lines read so far -/

/-- The number of lines of code. -/
def codeCount (ls : List Text) : Nat := ls.countP fun l => decide (IsCode l)

/-- The text `x` stands for a label in some line of code. -/
def References (ls : List Text) (x : Text) : Prop :=
  IsReference x ∧ ∃ w, HasOperand ls w ∧ bare w = x

/-- The audit knows all of the lines that matters. -/
structure Knows (a : Audit) (ls : List Text) : Prop where
  originSeen : a.originSeen = true ↔ ∃ n, OriginAt ls n
  instructions : a.instructions = codeCount ls
  labels : ∀ x n, (x, n) ∈ a.labels ↔ LabelAt ls n x
  labels_nodup : (a.labels.map Prod.fst).Nodup
  uses : ∀ x, x ∈ a.usedNames ↔ References ls x
  uses_nodup : a.usedNames.Nodup

theorem knows_nil : Knows {} [] where
  originSeen := by simp [OriginAt]
  instructions := rfl
  labels := by simp [LabelAt, CodeAt]
  labels_nodup := List.nodup_nil
  uses := by simp [References, HasOperand, CodeAt, usedNames]
  uses_nodup := List.nodup_nil

theorem codeCount_append (ls : List Text) (l : Text) :
    codeCount (ls ++ [l]) = codeCount ls + if IsCode l then 1 else 0 := by
  simp [codeCount, List.countP_append, List.countP_singleton]

theorem references_append {ls : List Text} {l x : Text} :
    References (ls ++ [l]) x ↔ References ls x ∨
      IsCode l ∧ IsReference x ∧ ∃ y ops, Parses (words l) y ops ∧ ∃ w ∈ ops, bare w = x := by
  simp only [References, hasOperand_append]
  grind

theorem lookup_labels_eq_none {a : Audit} {ls : List Text} (h : a.Knows ls) {x : Text} :
    a.labels.lookup x = none ↔ ∀ n, ¬ LabelAt ls n x := by
  rw [Text.lookup_eq_none_iff]
  simp [← h.labels]

theorem codeCount_eq_zero {ls : List Text} :
    codeCount ls = 0 ↔ ∀ n ws, ¬ CodeAt ls n ws := by
  rw [codeCount, List.countP_eq_zero]
  constructor
  · rintro h n ws ⟨l, hl, hc, -⟩
    exact h l (List.fst_mem_of_mem_zipIdx hl) (decide_eq_true hc)
  · intro h l hl hc
    rw [← List.zipIdx_map_fst 1 ls, List.mem_map] at hl
    obtain ⟨p, hp, rfl⟩ := hl
    exact h p.2 _ ⟨p.1, hp, of_decide_eq_true hc, rfl⟩

section Step

variable {a b : Audit} {ls : List Text} {l : Text}

theorem Knows.remark (h : a.Knows ls) (hl : IsRemark l) : a.Knows (ls ++ [l]) := by
  have hc : ¬ IsCode l := fun hc => hc.1 hl
  have ho : ¬ IsOrigin l := fun ho => not_isRemark_of_isOrigin ho hl
  exact {
    originSeen := by simp [h.originSeen, originAt_append, ho]
    instructions := by simp [h.instructions, codeCount_append, hc]
    labels := by simp [h.labels, labelAt_append, hc]
    labels_nodup := h.labels_nodup
    uses := by simp [h.uses, references_append, hc]
    uses_nodup := h.uses_nodup }

theorem Knows.origin (h : a.Knows ls) (hl : IsOrigin l) (n : Nat) (o : Text) :
    (a.setOrigin n o).Knows (ls ++ [l]) := by
  have hc : ¬ IsCode l := fun hc => hc.2 hl
  obtain ⟨v, hv⟩ : ∃ v, a.setOrigin n o =
      { a with originSeen := true, origin := o, violations := v } := by
    unfold setOrigin
    dsimp only
    split <;> split <;> exact ⟨_, rfl⟩
  rw [hv]
  exact {
    originSeen := by simp [originAt_append, hl]
    instructions := by simp [h.instructions, codeCount_append, hc]
    labels := by simp [h.labels, labelAt_append, hc]
    labels_nodup := h.labels_nodup
    uses := by
      intro x
      rw [references_append, or_iff_left fun hx => hc hx.1]
      exact h.uses x
    uses_nodup := h.uses_nodup }

theorem defineLabel_eq {x : Option Text} (h : ∀ y ∈ x, a.labels.lookup y = none) (n : Nat) :
    a.defineLabel n x = { a with labels := a.labels ++ (x.map (·, n)).toList } := by
  cases x with
  | none => simp [defineLabel]
  | some y => simp [defineLabel, define, h y rfl]

theorem Knows.code (h : a.Knows ls) (hl : IsCode l)
    (hb : a.code (ls.length + 1) (words l) = some b) (hv : b.violations = []) :
    b.Knows (ls ++ [l]) := by
  obtain ⟨-, ho, x, ops, hp, hx, -⟩ := (code_violations hb).1 hv
  rw [code_of_parses hp, defineLabel_eq hx, instruction, if_pos ho, Option.some.injEq] at hb
  have hn := operandsNoted_foldl (ls.length + 1) ops
    { a with
      labels := a.labels ++ (x.map (·, ls.length + 1)).toList
      instructions := a.instructions + 1 }
  rw [hb] at hn
  exact {
    originSeen := by
      rw [hn.originSeen]
      obtain ⟨m, hm⟩ := h.originSeen.1 ho
      exact iff_of_true ho ⟨m, originAt_append.2 (.inl hm)⟩
    instructions := by simp [hn.instructions, h.instructions, codeCount_append, hl]
    labels := by
      intro y k
      have hy : (∃ ops, Parses (words l) (some y) ops) ↔ x = some y := by
        constructor
        · rintro ⟨ops', hp'⟩
          exact (hp.unique hp').1
        · rintro rfl
          exact ⟨ops, hp⟩
      rw [hn.labels, labelAt_append, hy, List.mem_append, h.labels]
      simp [hl, and_comm, eq_comm]
    labels_nodup := by
      rw [hn.labels, List.map_append]
      cases x with
      | none => simpa using h.labels_nodup
      | some y =>
        have hy := Text.lookup_eq_none_iff.1 (hx y rfl)
        exact (List.perm_append_singleton _ _).nodup_iff.2 (List.nodup_cons.2 ⟨hy, h.labels_nodup⟩)
    uses := by
      intro y
      have hy : (∃ x ops, Parses (words l) x ops ∧ ∃ w ∈ ops, bare w = y) ↔
          ∃ w ∈ ops, bare w = y := by
        constructor
        · rintro ⟨x', ops', hp', hw⟩
          rwa [(hp.unique hp').2]
        · exact fun hw => ⟨x, ops, hp, hw⟩
      rw [hn.usedNames, references_append, hy]
      exact or_congr (h.uses y) (by grind)
    uses_nodup := hn.nodup h.uses_nodup }

end Step

/-! ### Whole listings -/

/-- The audit tells whether the lines obey the rules, and knows them if they do. -/
structure Tracks (a : Audit) (ls : List Text) : Prop where
  violations : a.violations = [] ↔ Rules ls
  knows : a.violations = [] → a.Knows ls

section Run

variable {a b : Audit} {ls : List Text} {l : Text}

theorem Tracks.append (h : a.Tracks ls) (hle : b.violations = [] → a.violations = [])
    (hiff : a.violations = [] → (b.violations = [] ↔ Admits ls l))
    (hknows : a.Knows ls → b.violations = [] → b.Knows (ls ++ [l])) : b.Tracks (ls ++ [l]) where
  violations := by
    rw [rules_append_iff, ← h.violations]
    exact ⟨fun hb => ⟨hle hb, (hiff (hle hb)).1 hb⟩, fun hb => (hiff hb.1).2 hb.2⟩
  knows hb := hknows (h.knows (hle hb)) hb

/-- **One line.** -/
theorem Tracks.step (h : a.Tracks ls) (hb : a.step (ls.length + 1) l = some b) :
    b.Tracks (ls ++ [l]) := by
  by_cases hr : IsRemark l
  · rw [step_of_isRemark hr] at hb
    obtain rfl := Option.some.inj hb
    have hadmits : Admits ls l :=
      ⟨fun ho => absurd hr (not_isRemark_of_isOrigin ho), fun hc => absurd hr hc.1⟩
    exact h.append id (fun ha => iff_of_true ha hadmits) fun hk _ => hk.remark hr
  · by_cases ho : IsOrigin l
    · obtain ⟨o, hs⟩ := step_of_isOrigin ho a (ls.length + 1)
      obtain rfl := Option.some.inj (hs.symm.trans hb)
      have hv := setOrigin_violations a (ls.length + 1) o
      refine h.append (fun hb => (hv.1 hb).1) (fun ha => ?_) fun hk _ => hk.origin ho _ o
      -- without an origin there is no code
      have hk := h.knows ha
      have hseen : a.originSeen = false ↔ ∀ m, ¬ OriginAt ls m := by
        rw [← Bool.not_eq_true, hk.originSeen, not_exists]
      rw [hv, hseen, hk.instructions, codeCount_eq_zero]
      constructor
      · exact fun hn => ⟨fun _ => hn.2.1, fun hc => absurd ho hc.2⟩
      · intro hn
        refine ⟨ha, hn.origin ho, fun n ws hc => ?_⟩
        obtain ⟨m, -, hm⟩ := (h.violations.1 ha).origin_first n ws hc
        exact hn.origin ho m hm
    · rw [step_of_isCode ⟨hr, ho⟩] at hb
      have hv := code_violations hb
      refine h.append (fun hb => (hv.1 hb).1) (fun ha => ?_) fun hk => hk.code ⟨hr, ho⟩ hb
      have hk := h.knows ha
      simp only [hv, ha, true_and, hk.originSeen, lookup_labels_eq_none hk]
      exact ⟨fun hn => ⟨fun h => absurd h ho, fun _ => hn⟩, fun hn => hn.code ⟨hr, ho⟩⟩

/-- **All lines**, one after another. -/
theorem Tracks.steps {rest : List Text} (h : a.Tracks ls)
    (hb : a.steps (ls.length + 1) rest = some b) : b.Tracks (ls ++ rest) := by
  induction rest generalizing a ls with
  | nil =>
    obtain rfl := Option.some.inj hb
    rwa [List.append_nil]
  | cons l rest ih =>
    obtain ⟨c, hc, hb⟩ := Option.bind_eq_some_iff.1 hb
    have hlast : ls.length + 1 + 1 = (ls ++ [l]).length + 1 := by simp
    rw [hlast] at hb
    rw [← List.singleton_append, ← List.append_assoc]
    exact ih (h.step hc) hb

end Run

theorem tracks_nil : Tracks {} [] where
  violations := by
    refine iff_of_true rfl ?_
    constructor <;> simp [OriginAt, CodeAt, LabelAt, HasOperand]
  knows _ := knows_nil

theorem mem_undefined {a : Audit} {x : Text} :
    x ∈ a.undefined ↔ x ∈ a.usedNames ∧ a.labels.lookup x = none := by
  rw [undefined, (List.mergeSort_perm _ _).mem_iff, List.mem_filter, usedNames,
    Option.isNone_iff_eq_none]

/-- The labels that are missing stand in order, each of them once. -/
theorem pairwise_undefined {a : Audit} (h : a.usedNames.Nodup) :
    a.undefined.Pairwise (· < ·) := by
  have hle : a.undefined.Pairwise fun x y => decide (x ≤ y) = true := by
    refine List.pairwise_mergeSort ?_ ?_ _
    · intro x y z hxy hyz
      exact decide_eq_true (List.le_trans (of_decide_eq_true hxy) (of_decide_eq_true hyz))
    · intro x y
      simpa using List.le_total x y
  have hne : a.undefined.Nodup :=
    (List.mergeSort_perm _ _).nodup_iff.2 (List.Pairwise.filter _ h)
  refine (hle.and hne).imp ?_
  rintro x y ⟨hxy, hn⟩
  exact List.not_le.1 fun hyx => hn (List.le_antisymm (of_decide_eq_true hxy) hyx)

/-- **The check decides the rules**: in a listing without lines that cannot be read, it finds no
violation if and only if the lines obey the rules, in whatever order these are put.  It then
knows how many words there are, which line defines each label, and in order which labels are
missing. -/
theorem ofText_decides_rules (t : Text) (h : ∀ l ∈ t.split 10, ¬ IsVoid l) :
    ∃ a, ofText t = some a ∧ (a.violations = [] ↔ Rules (t.split 10)) ∧
      (a.violations = [] →
        a.instructions = codeCount (t.split 10) ∧
        (∀ x n, a.labels.lookup x = some n ↔ LabelAt (t.split 10) n x) ∧
        a.undefined.Pairwise (· < ·) ∧
        ∀ x, x ∈ a.undefined ↔
          References (t.split 10) x ∧ ∀ n, ¬ LabelAt (t.split 10) n x) := by
  have hsome : ofText t ≠ none := by
    rw [ofText, ne_eq, steps_eq_none_iff]
    rintro ⟨l, hl, hv⟩
    exact h l hl hv
  obtain ⟨a, ha⟩ := Option.ne_none_iff_exists'.1 hsome
  have htrack : a.Tracks (t.split 10) := tracks_nil.steps ha
  refine ⟨a, ha, htrack.violations, fun hv => ?_⟩
  have hk := htrack.knows hv
  refine ⟨hk.instructions, fun x n => ?_, pairwise_undefined hk.uses_nodup, fun x => ?_⟩
  · rw [Text.lookup_eq_some_iff hk.labels_nodup, hk.labels]
  · rw [mem_undefined, hk.uses, lookup_labels_eq_none hk]

/-- A listing of three words that uses a label without a definition. -/
def shortListing : Text := "; start\norg 0\nmain mov r0, #-16\n  st r0, [r1, #15]\nbal loop\n"

theorem ofText_decides_rules_shortListing :
    Rules (shortListing.split 10) ∧ LabelAt (shortListing.split 10) 3 "main" ∧
      References (shortListing.split 10) "loop" := by
  obtain ⟨a, ha, hr, hk⟩ := ofText_decides_rules shortListing (by decide)
  have hread : (ofText shortListing).map (fun a => (a.violations, a.labels, a.usedNames)) =
      some ([], [(Text.ofString "main", 3)], [Text.ofString "loop"]) := by
    decide
  rw [ha, Option.map_some, Option.some.injEq, Prod.mk.injEq, Prod.mk.injEq] at hread
  obtain ⟨hv, hl, hu⟩ := hread
  obtain ⟨-, hlabel, -, hmissing⟩ := hk hv
  refine ⟨hr.1 hv, (hlabel _ _).1 (by rw [hl]; decide), ((hmissing _).1 ?_).1⟩
  exact mem_undefined.2 ⟨by rw [hu]; simp, by rw [hl]; decide⟩

end Audit

end StumpGen
