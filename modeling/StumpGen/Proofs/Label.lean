import StumpGen.Lowering.Label
import StumpGen.Program
import StumpGen.Proofs.TextParts

/-!
# Labels do not clash

The labels of a listing come in families: globals, functions, labels of programs, labels of the
code generator and three fixed ones.  The first byte tells most families apart, and within a
family the name or number can be read off the label:

* `Label.user_inj` : the function and the label of a user label can be read off it, if the names
  of functions are valid.
* `Label.labels_distinct` : **no two things that have a label share it**, be they of one family or
  of two (`Label.Symbol`).
-/

namespace StumpGen

namespace Text

theorem lookup_eq_none_iff {α : Type} {t : Text} {ps : List (Text × α)} :
    ps.lookup t = none ↔ t ∉ ps.map Prod.fst := by
  rw [List.lookup_eq_none_iff]
  simp only [List.mem_map, not_exists, not_and, bne_iff_ne]
  exact ⟨fun h x hx he => h x hx he.symm, fun h x hx he => h x hx he.symm⟩

theorem lookup_eq_some_iff {α : Type} {t : Text} {a : α} {ps : List (Text × α)}
    (h : (ps.map Prod.fst).Nodup) : ps.lookup t = some a ↔ (t, a) ∈ ps := by
  induction ps with
  | nil => simp
  | cons x ps ih =>
    obtain ⟨u, b⟩ := x
    rw [List.map_cons, List.nodup_cons] at h
    rw [List.lookup_cons, List.mem_cons, Prod.mk.injEq]
    by_cases htu : t = u
    · obtain rfl := htu
      have hnot : (t, a) ∉ ps := fun hm => h.1 (List.mem_map.2 ⟨_, hm, rfl⟩)
      simp [hnot, eq_comm]
    · have hbeq : (t == u) = false := beq_false_of_ne htu
      simp [hbeq, htu, ih h.2]

end Text

namespace Name

/-- Whether the byte can stand in a name, behind the first one. -/
def isByte (c : UInt8) : Bool := Text.isLetter c || Text.isDigit c || c == 95

theorem isByte_of_isValid {n : Text} (h : isValid n = true) : ∀ b ∈ n, isByte b = true := by
  cases n with
  | nil => cases h
  | cons a t =>
    rw [isValid, Bool.and_eq_true, Bool.or_eq_true, List.all_eq_true] at h
    intro b hb
    rcases List.mem_cons.1 hb with rfl | hb
    · rcases h.1 with h | h <;> simp [isByte, h]
    · exact h.2 b hb

theorem isValid_append {s t : Text} (hs : isValid s = true) (ht : ∀ b ∈ t, isByte b = true) :
    isValid (s ++ t) = true := by
  cases s with
  | nil => cases hs
  | cons a s =>
    rw [isValid, Bool.and_eq_true] at hs
    rw [List.cons_append, isValid, Bool.and_eq_true, List.all_append, Bool.and_eq_true]
    exact ⟨hs.1, hs.2, List.all_eq_true.2 ht⟩

theorem toNat_of_isByte {b : UInt8} (h : isByte b = true) :
    48 ≤ b.toNat ∧ b.toNat ≤ 122 := by
  simp only [isByte, Text.isLetter, Text.isDigit, Bool.or_eq_true, Bool.and_eq_true,
    decide_eq_true_eq, beq_iff_eq, UInt8.le_iff_toNat_le, ← UInt8.toNat_inj,
    UInt8.reduceToNat] at h
  omega

end Name

namespace Label

/-! ### The first byte of a label -/

@[simp] theorem head?_global (n : Text) : (global n).head? = some 71 := rfl

@[simp] theorem head?_function (n : Text) : (function n).head? = some 70 := rfl

@[simp] theorem head?_user (f n : Text) : (user f n).head? = some 76 := by
  unfold user
  split <;> rfl

@[simp] theorem head?_generated (n : Nat) : (generated n).head? = some 97 := rfl

@[simp] theorem head?_exit : exit.head? = some 112 := rfl

@[simp] theorem head?_stackPointer : stackPointer.head? = some 115 := rfl

@[simp] theorem head?_stack : stack.head? = some 115 := rfl

@[simp] theorem isEmpty_global (n : Text) : (global n).isEmpty = false := rfl

@[simp] theorem isEmpty_function (n : Text) : (function n).isEmpty = false := rfl

@[simp] theorem isEmpty_user (f n : Text) : (user f n).isEmpty = false := by
  unfold user
  split <;> rfl

@[simp] theorem isEmpty_generated (n : Nat) : (generated n).isEmpty = false := rfl

/-! ### Labels are names -/

theorem isByte_ofNat (n : Nat) : ∀ b ∈ Text.ofNat n, Name.isByte b = true := by
  intro b hb
  simp [Name.isByte, Text.isDigit_of_mem_ofNat hb]

theorem isValid_global {n : Text} (h : Name.isValid n = true) :
    Name.isValid (global n) = true :=
  Name.isValid_append (by decide) (Name.isByte_of_isValid h)

theorem isValid_function {n : Text} (h : Name.isValid n = true) :
    Name.isValid (function n) = true :=
  Name.isValid_append (by decide) (Name.isByte_of_isValid h)

theorem isValid_generated (n : Nat) : Name.isValid (generated n) = true :=
  Name.isValid_append (by decide) (isByte_ofNat n)

theorem isValid_user {f n : Text} (hf : Name.isValid f = true) (hn : Name.isValid n = true) :
    Name.isValid (user f n) = true := by
  have hu : ∀ b ∈ Text.ofString "_", Name.isByte b = true :=
    List.all_eq_true.1 (by decide : (Text.ofString "_").all Name.isByte = true)
  have hf := Name.isByte_of_isValid hf
  have hn := Name.isByte_of_isValid hn
  have h₀ : Name.isValid "LABEL_" = true := by decide
  unfold user
  split
  · have h₁ := Name.isValid_append h₀ (isByte_ofNat f.length)
    have h₂ := Name.isValid_append (Name.isValid_append h₁ hu) hf
    exact Name.isValid_append (Name.isValid_append h₂ hu) hn
  · exact Name.isValid_append (Name.isValid_append (Name.isValid_append h₀ hf) hu) hn

/-! ### Names within a family -/

theorem global_injective : Function.Injective global := fun _ _ h => List.append_cancel_left h

theorem function_injective : Function.Injective function := fun _ _ h => List.append_cancel_left h

theorem generated_injective : Function.Injective generated :=
  fun _ _ h => Text.ofNat_injective (List.append_cancel_left h)

theorem underscore_notMem_ofNat (n : Nat) : (95 : UInt8) ∉ Text.ofNat n := by
  intro h
  exact absurd (Text.isDigit_of_mem_ofNat h) (by decide)

/-- No numeral is a valid name. -/
theorem ofNat_ne_of_isValid {n : Nat} {f : Text} (hf : Name.isValid f = true) :
    Text.ofNat n ≠ f := by
  rintro rfl
  cases hn : Text.ofNat n with
  | nil => exact Text.ofNat_ne_nil n hn
  | cons b t =>
    rw [hn, Name.isValid, Bool.and_eq_true, Bool.or_eq_true] at hf
    have hd : Text.isDigit b = true := Text.isDigit_of_mem_ofNat (n := n) (by simp [hn])
    simp only [Text.isDigit, Text.isLetter, Bool.and_eq_true, Bool.or_eq_true, decide_eq_true_eq,
      beq_iff_eq] at hd hf
    rcases hf.1 with (h | h) | h
    · exact absurd (UInt8.le_trans h.1 hd.2) (by decide)
    · exact absurd (UInt8.le_trans h.1 hd.2) (by decide)
    · rw [h] at hd
      exact absurd hd.2 (by decide)

theorem user_of_underscore {f : Text} (n : Text) (h : (95 : UInt8) ∈ f) :
    user f n = Text.ofString "LABEL_" ++ (Text.ofNat f.length ++ 95 :: (f ++ 95 :: n)) := by
  simp only [user, List.contains_eq_mem, h, decide_true, ↓reduceIte, List.append_assoc]
  rfl

theorem user_of_no_underscore {f : Text} (n : Text) (h : (95 : UInt8) ∉ f) :
    user f n = Text.ofString "LABEL_" ++ (f ++ 95 :: n) := by
  simp only [user, List.contains_eq_mem, h, decide_false, Bool.false_eq_true, ↓reduceIte,
    List.append_assoc]
  rfl

/-- **A user label tells its function and its name.** -/
theorem user_inj {f f' n n' : Text} (hf : Name.isValid f = true) (hf' : Name.isValid f' = true)
    (h : user f n = user f' n') : f = f' ∧ n = n' := by
  by_cases hu : (95 : UInt8) ∈ f <;> by_cases hu' : (95 : UInt8) ∈ f'
  · rw [user_of_underscore n hu, user_of_underscore n' hu'] at h
    obtain ⟨hl, hr⟩ := Text.append_cons_inj (underscore_notMem_ofNat _)
      (underscore_notMem_ofNat _) (List.append_cancel_left h)
    obtain ⟨rfl, hn⟩ := List.append_inj hr (Text.ofNat_injective hl)
    exact ⟨rfl, (List.cons.inj hn).2⟩
  · rw [user_of_underscore n hu, user_of_no_underscore n' hu'] at h
    obtain ⟨hl, -⟩ := Text.append_cons_inj (underscore_notMem_ofNat _) hu'
      (List.append_cancel_left h)
    exact absurd hl (ofNat_ne_of_isValid hf')
  · rw [user_of_no_underscore n hu, user_of_underscore n' hu'] at h
    obtain ⟨hl, -⟩ := Text.append_cons_inj hu (underscore_notMem_ofNat _)
      (List.append_cancel_left h)
    exact absurd hl.symm (ofNat_ne_of_isValid hf)
  · rw [user_of_no_underscore n hu, user_of_no_underscore n' hu'] at h
    exact Text.append_cons_inj hu hu' (List.append_cancel_left h)

/-! ### All families together -/

/-- What a label of a listing stands for.  Only the functions that have labels of their own need
a valid name. -/
inductive Symbol where
  /-- A global. -/
  | global (name : Text)
  /-- A function. -/
  | function (name : Text)
  /-- A label of a function. -/
  | user (f : Text) (valid : Name.isValid f = true) (name : Text)
  /-- A place that the code generator jumps to. -/
  | generated (n : Nat)
  /-- The loop that a finished program stays in. -/
  | exit
  /-- The word that holds the start of the stack. -/
  | stackPointer
  /-- The start of the stack. -/
  | stack

/-- The label of a symbol. -/
def Symbol.text : Symbol → Text
  | .global name => Label.global name
  | .function name => Label.function name
  | .user f _ name => Label.user f name
  | .generated n => Label.generated n
  | .exit => Label.exit
  | .stackPointer => Label.stackPointer
  | .stack => Label.stack

theorem Symbol.text_injective : Function.Injective Symbol.text := by
  intro s s' h
  have hhead : s.text.head? = s'.text.head? := congrArg List.head? h
  -- Labels of two families differ in the first byte, but for the two labels of the stack.
  cases s with
  | global n =>
    cases s' with
    | global n' => rw [global_injective h]
    | _ => simp [text] at hhead
  | function n =>
    cases s' with
    | function n' => rw [function_injective h]
    | _ => simp [text] at hhead
  | user f hf n =>
    cases s' with
    | user f' hf' n' =>
      obtain ⟨rfl, rfl⟩ := user_inj hf hf' h
      rfl
    | _ => simp [text] at hhead
  | generated n =>
    cases s' with
    | generated n' => rw [generated_injective h]
    | _ => simp [text] at hhead
  | exit =>
    cases s' with
    | exit => rfl
    | _ => simp [text] at hhead
  | stackPointer =>
    cases s' with
    | stackPointer => rfl
    | stack => exact absurd h (by decide)
    | _ => simp [text] at hhead
  | stack =>
    cases s' with
    | stack => rfl
    | stackPointer => exact absurd h (by decide)
    | _ => simp [text] at hhead

/-- **Labels do not clash.**  A user label tells its function, if that has a valid name, and its
name, which may be any text; and the labels of two symbols differ, whether the symbols belong to
different families or differ in a name or a number. -/
theorem labels_distinct :
    (∀ f f' n n' : Text, Name.isValid f = true → Name.isValid f' = true →
      user f n = user f' n' → f = f' ∧ n = n') ∧
    ∀ s s' : Symbol, s ≠ s' → s.text ≠ s'.text :=
  ⟨fun _ _ _ _ hf hf' h => user_inj hf hf' h, fun _ _ h => Symbol.text_injective.ne h⟩

/-- Two pairs of a function and a label that would read the same if an underscore joined them, and
a global and a function that share a name. -/
theorem labels_distinct_namesakes :
    Name.isValid "a" = true ∧ Name.isValid "a_b" = true ∧
    (Text.ofString "a" ++ "_" ++ "b_c" : Text) = Text.ofString "a_b" ++ "_" ++ "c" ∧
    user "a" "b_c" ≠ user "a_b" "c" ∧ global "a" ≠ function "a" := by
  have hf : Name.isValid "a" = true := by decide
  have hf' : Name.isValid "a_b" = true := by decide
  refine ⟨hf, hf', by decide, fun h => ?_, ?_⟩
  · obtain ⟨hname, -⟩ := labels_distinct.1 _ _ _ _ hf hf' h
    exact absurd hname (by decide)
  · exact labels_distinct.2 (.global "a") (.function "a") (by rintro ⟨⟩)

-- A function whose name is a number would take the labels of another one.
example : user "3" "a_b_c" = user "a_b" "c" := by decide

end Label

end StumpGen
