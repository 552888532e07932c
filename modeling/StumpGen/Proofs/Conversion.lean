import StumpGen.Document.Conversion
import StumpGen.Proofs.Validity
import Mathlib.Data.List.Forall2

/-!
# What documents stand for

All fields of a document are plain texts, and which of them are set decides what a record stands
for.  The relations `Argument.Denotes`, `Statement.Denotes` and `Element.Denotes` say this one form
at a time, with no order among the fields and no errors.

* `Statement.toStatement_eq_ok`, `Element.convert_eq_ok` : the converter gives what a record stands
  for, if it stands for anything.
* `Element.convert_eq_error` : what is wrong with an element that stands for nothing is placed where
  `Element.FlawAt` says.
* `program_complete` : **the converter is a complete check for the code generator**.  A document is
  converted or its first flaw is reported, and a program that comes out is valid, so that the code
  generator never finds it to be bad input.
-/

namespace StumpGen

namespace Document

/-! ### Traversals -/

section Traversal

variable {α β ε : Type}

theorem bind_eq_ok {x : Except ε α} {f : α → Except ε β} {b : β} :
    (x >>= f) = .ok b ↔ ∃ a, x = .ok a ∧ f a = .ok b := by
  cases x <;> simp [bind, Except.bind]

theorem pure_eq_ok {a b : α} : (pure a : Except ε α) = .ok b ↔ b = a := by
  rw [pure, Applicative.toPure, Monad.toApplicative, Except.instMonad]
  simp [Except.pure, eq_comm]

theorem bind_eq_error {x : Except ε α} {f : α → Except ε β} {e : ε} :
    (x >>= f) = .error e ↔ x = .error e ∨ ∃ a, x = .ok a ∧ f a = .error e := by
  cases x <;> simp [bind, Except.bind]

theorem mapM_eq_ok {f : α → Except ε β} {R : α → β → Prop} (h : ∀ a b, f a = .ok b ↔ R a b)
    {xs : List α} {ys : List β} : xs.mapM f = .ok ys ↔ List.Forall₂ R xs ys := by
  induction xs generalizing ys with
  | nil => rw [List.mapM_nil, pure_eq_ok, List.forall₂_nil_left_iff]
  | cons x xs ih =>
    simp only [List.mapM_cons, bind_eq_ok, pure_eq_ok, h, ih, List.forall₂_cons_left_iff]
    constructor
    · rintro ⟨y, hy, ys, hys, rfl⟩
      exact ⟨y, ys, hy, hys, rfl⟩
    · rintro ⟨y, ys, hy, hys, rfl⟩
      exact ⟨y, hy, ys, hys, rfl⟩

/-- A traversal with positions gives what it gives without them, if they matter to errors only. -/
theorem mapM_zipIdx_eq_ok {f : α × Nat → Except ε β} {R : α → β → Prop}
    (h : ∀ a i b, f (a, i) = .ok b ↔ R a b) {n : Nat} {xs : List α} {ys : List β} :
    (xs.zipIdx n).mapM f = .ok ys ↔ List.Forall₂ R xs ys := by
  have hpairs : (xs.zipIdx n).mapM f = .ok ys ↔
      List.Forall₂ (fun p b => R p.1 b) (xs.zipIdx n) ys := mapM_eq_ok fun p b => h p.1 p.2 b
  rw [hpairs, ← List.forall₂_map_left_iff, List.zipIdx_map_fst]

/-- A traversal stops at the first item that it cannot deal with. -/
theorem mapM_zipIdx_eq_error {f : α × Nat → Except ε β} {n : Nat} {xs : List α} {e : ε}
    (h : (xs.zipIdx n).mapM f = .error e) :
    ∃ before a after, xs = before ++ a :: after ∧ f (a, n + before.length) = .error e ∧
      ∀ x ∈ before, ∃ i b, f (x, i) = .ok b := by
  induction xs generalizing n with
  | nil => cases h
  | cons x xs ih =>
    rw [List.zipIdx_cons, List.mapM_cons] at h
    cases hx : f (x, n) with
    | error e' =>
      rw [hx] at h
      cases h
      exact ⟨[], x, xs, rfl, hx, by simp⟩
    | ok y =>
      cases hxs : (xs.zipIdx (n + 1)).mapM f with
      | ok ys => simp [hx, hxs, bind, Except.bind, pure, Except.pure] at h
      | error e' =>
        simp only [hx, hxs, bind, Except.bind, Except.error.injEq] at h
        subst h
        obtain ⟨before, a, after, rfl, ha, hbefore⟩ := ih hxs
        refine ⟨x :: before, a, after, rfl, ?_, List.forall_mem_cons.2 ⟨⟨n, y, hx⟩, hbefore⟩⟩
        rwa [List.length_cons, ← Nat.add_assoc, Nat.add_right_comm]

end Traversal

/-! ### What fields stand for -/

/-- The text names the register `r`. -/
def IsRegister (t : Text) (r : Register) : Prop := Register.ofName? t = some r

/-- The text is a token of the literal `l`. -/
def IsLiteral (t : Text) (l : Literal) : Prop := t ≠ [] ∧ l = .ofToken t

/-- The text is the name `n`. -/
def IsName (t n : Text) : Prop := Name.isValid t = true ∧ n = t

theorem IsRegister.ne_nil {t : Text} {r : Register} (h : IsRegister t r) : t ≠ [] := by
  rintro rfl
  have hnone : Register.ofName? [] = none := by decide
  cases hnone.symm.trans h

theorem IsName.ne_nil {t n : Text} (h : IsName t n) : t ≠ [] := by
  rintro rfl
  cases h.1

theorem register_eq_ok {field t : Text} {r : Register} :
    register field t = .ok r ↔ IsRegister t r := by
  rw [register]
  by_cases ht : t = []
  · simpa [ht] using fun h : IsRegister [] r => h.ne_nil rfl
  · rw [if_neg ht, IsRegister]
    cases Register.ofName? t <;> simp

theorem literal_eq_ok {field t : Text} {l : Literal} :
    literal field t = .ok l ↔ IsLiteral t l := by
  by_cases ht : t = []
  · simp [literal, IsLiteral, ht]
  · simp [literal, IsLiteral, ht, eq_comm]

theorem identifier_eq_ok {field t n : Text} : identifier field t = .ok n ↔ IsName t n := by
  rw [identifier]
  by_cases ht : t = []
  · simpa [ht] using fun h : IsName [] n => h.ne_nil rfl
  · by_cases hv : Name.isValid t = true
    · simp [ht, hv, IsName, eq_comm]
    · simp [ht, hv, IsName]

/-! ### What records stand for -/

/-- Exactly one field of an argument is set, and it says what is passed. -/
inductive Argument.Denotes (a : Argument) : StumpGen.Argument → Prop
  | identifier {n} (hi : IsName a.ident n) (hl : a.lit = []) (hr : a.reg = []) :
    Denotes a (.identifier n)
  | literal {l} (hi : a.ident = []) (hl : IsLiteral a.lit l) (hr : a.reg = []) :
    Denotes a (.literal l)
  | register {r} (hi : a.ident = []) (hl : a.lit = []) (hr : IsRegister a.reg r) :
    Denotes a (.register r)

/-- The operation and the fields that are set select the form of a statement. -/
inductive Statement.Denotes (s : Statement) : StumpGen.Statement → Prop
  | addReg {d l r} (op : s.op = "add") (hd : IsRegister s.dest d) (hl : IsRegister s.left l)
      (hr : IsRegister s.right r) : Denotes s (.addReg d l r)
  | addImm {d l v} (op : s.op = "add") (hr : s.right = []) (hd : IsRegister s.dest d)
      (hl : IsRegister s.left l) (hv : IsLiteral s.value v) : Denotes s (.addImm d l v)
  | addAssignReg {d r} (op : s.op = "add") (hl : s.left = []) (hd : IsRegister s.dest d)
      (hs : IsRegister s.src r) : Denotes s (.addAssignReg d r)
  | addAssignImm {d v} (op : s.op = "add") (hl : s.left = []) (hs : s.src = [])
      (hd : IsRegister s.dest d) (hv : IsLiteral s.value v) : Denotes s (.addAssignImm d v)
  | andReg {d l r} (op : s.op = "and") (hd : IsRegister s.dest d) (hl : IsRegister s.left l)
      (hr : IsRegister s.right r) : Denotes s (.andReg d l r)
  | andImm {d l v} (op : s.op = "and") (hr : s.right = []) (hd : IsRegister s.dest d)
      (hl : IsRegister s.left l) (hv : IsLiteral s.value v) : Denotes s (.andImm d l v)
  | cmpReg {l r} (op : s.op = "cmp") (hl : IsRegister s.left l) (hr : IsRegister s.right r) :
    Denotes s (.cmpReg l r)
  | cmpImm {l v} (op : s.op = "cmp") (hr : s.right = []) (hl : IsRegister s.left l)
      (hv : IsLiteral s.value v) : Denotes s (.cmpImm l v)
  | testReg {l r} (op : s.op = "test") (hl : IsRegister s.left l) (hr : IsRegister s.right r) :
    Denotes s (.testReg l r)
  | testImm {l v} (op : s.op = "test") (hr : s.right = []) (hl : IsRegister s.left l)
      (hv : IsLiteral s.value v) : Denotes s (.testImm l v)
  | goto {n} (op : s.op = "goto") (hc : s.cond = []) (hn : IsName s.label n) : Denotes s (.goto n)
  | gotoCond {n} (op : s.op = "goto") (hc : s.cond ≠ []) (hn : IsName s.label n) :
    Denotes s (.gotoCond s.cond n)
  | label {n} (op : s.op = "label") (hn : IsName s.name n) : Denotes s (.label n)
  | load {d n} (op : s.op = "load") (hd : IsRegister s.dest d) (hn : IsName s.name n) :
    Denotes s (.load d n)
  | loadOffset {d b o} (op : s.op = "load") (hn : s.name = []) (hd : IsRegister s.dest d)
      (hb : IsRegister s.base b) (ho : IsRegister s.offset o) : Denotes s (.loadOffset d b o)
  | loadReg {d r} (op : s.op = "load") (hn : s.name = []) (hb : s.base = [])
      (hd : IsRegister s.dest d) (hs : IsRegister s.src r) : Denotes s (.loadReg d r)
  | loadAddr {d n} (op : s.op = "loadaddr") (hd : IsRegister s.dest d) (hn : IsName s.name n) :
    Denotes s (.loadAddr d n)
  | store {n r} (op : s.op = "store") (hn : IsName s.name n) (hs : IsRegister s.src r) :
    Denotes s (.store n r)
  | storeOffset {b o r} (op : s.op = "store") (hn : s.name = []) (hb : IsRegister s.base b)
      (ho : IsRegister s.offset o) (hs : IsRegister s.src r) : Denotes s (.storeOffset b o r)
  | storeReg {a r} (op : s.op = "store") (hn : s.name = []) (hb : s.base = [])
      (ha : IsRegister s.addr a) (hs : IsRegister s.src r) : Denotes s (.storeReg a r)
  | set {d v} (op : s.op = "set") (hd : IsRegister s.dest d) (hv : IsLiteral s.value v) :
    Denotes s (.set d v)
  | shiftLeft {d r v} (op : s.op = "lshift") (hd : IsRegister s.dest d) (hs : IsRegister s.src r)
      (hv : IsLiteral s.amount v) : Denotes s (.shiftLeft d r v)
  | call {c as} (op : s.op = "call") (hc : IsName s.func c)
      (has : List.Forall₂ Argument.Denotes s.args as) (ho : s.out = []) :
    Denotes s (.call c as .absent)
  | callOut {c as r} (op : s.op = "call") (hc : IsName s.func c)
      (has : List.Forall₂ Argument.Denotes s.args as) (ho : IsRegister s.out r) :
    Denotes s (.call c as r)
  | nop (op : s.op = "nop") : Denotes s .nop
  | declare {n} (op : s.op = "local") (hn : IsName s.name n) : Denotes s (.declare n)
  | leave (op : s.op = "return") : Denotes s .leave

/-- The kind of an element selects the fields that count. -/
inductive Element.Denotes (e : Element) : StumpGen.Element → Prop
  | literal {n v} (kind : e.kind = "literal") (hn : IsName e.name n) (hv : IsLiteral e.value v) :
    Denotes e (.global n (.literal v))
  | array {n vs} (kind : e.kind = "array") (hn : IsName e.name n)
      (hv : List.Forall₂ IsLiteral e.values vs) : Denotes e (.global n (.array vs))
  | block {n v} (kind : e.kind = "block") (hn : IsName e.name n) (hv : IsLiteral e.size v) :
    Denotes e (.global n (.block v))
  | string {n} (kind : e.kind = "string") (hn : IsName e.name n) :
    Denotes e (.global n (.string e.text))
  | function {f : Function} (kind : e.kind = "function") (hn : IsName e.name f.name)
      (hp : List.Forall₂ IsName e.params f.params)
      (hb : List.Forall₂ Statement.Denotes e.body f.body) : Denotes e (.function f)

/-! ### The converter and what records stand for -/

theorem Argument.toArgument_eq_ok {a : Argument} {i : Nat} {x : StumpGen.Argument} :
    a.toArgument i = .ok x ↔ a.Denotes x := by
  constructor
  · intro h
    unfold toArgument at h
    split at h
    · rename_i hi hl hr
      split at h
      · rename_i hv
        cases h
        exact .identifier ⟨hi ▸ hv, hi.symm⟩ hl hr
      · cases h
    · rename_i hi hl hr
      cases h
      exact .literal hi ⟨by simp [hl], by rw [hl]⟩ hr
    · rename_i hi hl hr
      split at h
      · rename_i r hreg
        cases h
        exact .register hi hl (hr ▸ hreg)
      · cases h
    · cases h
  · intro h
    cases h with
    | identifier hi hl hr =>
      obtain ⟨b, t, hbt⟩ := List.exists_cons_of_ne_nil hi.ne_nil
      obtain ⟨hv, rfl⟩ := hi
      rw [hbt] at hv
      simp [toArgument, hbt, hl, hr, hv]
    | literal hi hl hr =>
      obtain ⟨hne, rfl⟩ := hl
      obtain ⟨b, t, hbt⟩ := List.exists_cons_of_ne_nil hne
      simp [toArgument, hbt, hi, hr]
    | register hi hl hr =>
      obtain ⟨b, t, hbt⟩ := List.exists_cons_of_ne_nil hr.ne_nil
      rw [IsRegister, hbt] at hr
      simp [toArgument, hbt, hi, hl, hr]

namespace Statement

variable {s : Statement} {st : StumpGen.Statement}

theorem arguments_eq_ok {as : List StumpGen.Argument} :
    s.arguments = .ok as ↔ List.Forall₂ Argument.Denotes s.args as :=
  mapM_zipIdx_eq_ok fun _ _ _ => Argument.toArgument_eq_ok

theorem denotes_of_addition (op : s.op = "add") (h : s.addition = .ok st) : s.Denotes st := by
  unfold addition destReg leftReg rightReg srcReg constant at h
  split_ifs at h with h₁ h₂ h₃ <;>
    simp only [bind_eq_ok, pure_eq_ok, register_eq_ok, literal_eq_ok] at h
  · obtain ⟨d, hd, l, hl, r, hr, rfl⟩ := h
    exact .addReg op hd hl hr
  · obtain ⟨d, hd, l, hl, v, hv, rfl⟩ := h
    have hr : s.right = [] := by
      by_contra hr
      exact h₁ ⟨h₂, hr⟩
    exact .addImm op hr hd hl hv
  · obtain ⟨d, hd, r, hr, rfl⟩ := h
    exact .addAssignReg op (not_not.1 h₂) hd hr
  · obtain ⟨d, hd, v, hv, rfl⟩ := h
    exact .addAssignImm op (not_not.1 h₂) (not_not.1 h₃) hd hv

theorem denotes_of_conjunction (op : s.op = "and") (h : s.conjunction = .ok st) :
    s.Denotes st := by
  unfold conjunction destReg leftReg rightReg constant at h
  split_ifs at h with h₁ <;>
    simp only [bind_eq_ok, pure_eq_ok, register_eq_ok, literal_eq_ok] at h
  · obtain ⟨d, hd, l, hl, r, hr, rfl⟩ := h
    exact .andReg op hd hl hr
  · obtain ⟨d, hd, l, hl, v, hv, rfl⟩ := h
    exact .andImm op (not_not.1 h₁) hd hl hv

theorem denotes_of_comparison (op : s.op = "cmp") (h : s.comparison = .ok st) : s.Denotes st := by
  unfold comparison leftReg rightReg constant at h
  split_ifs at h with h₁ <;>
    simp only [bind_eq_ok, pure_eq_ok, register_eq_ok, literal_eq_ok] at h
  · obtain ⟨l, hl, r, hr, rfl⟩ := h
    exact .cmpReg op hl hr
  · obtain ⟨l, hl, v, hv, rfl⟩ := h
    exact .cmpImm op (not_not.1 h₁) hl hv

theorem denotes_of_bitTest (op : s.op = "test") (h : s.bitTest = .ok st) : s.Denotes st := by
  unfold bitTest leftReg rightReg constant at h
  split_ifs at h with h₁ <;>
    simp only [bind_eq_ok, pure_eq_ok, register_eq_ok, literal_eq_ok] at h
  · obtain ⟨l, hl, r, hr, rfl⟩ := h
    exact .testReg op hl hr
  · obtain ⟨l, hl, v, hv, rfl⟩ := h
    exact .testImm op (not_not.1 h₁) hl hv

theorem denotes_of_jump (op : s.op = "goto") (h : s.jump = .ok st) : s.Denotes st := by
  unfold jump at h
  simp only [bind_eq_ok, identifier_eq_ok] at h
  obtain ⟨n, hn, h⟩ := h
  split_ifs at h with h₁ <;> rw [pure_eq_ok] at h <;> subst h
  · exact .gotoCond op h₁ hn
  · exact .goto op (not_not.1 h₁) hn

theorem denotes_of_reading (op : s.op = "load") (h : s.reading = .ok st) : s.Denotes st := by
  unfold reading destReg srcReg nameField at h
  split_ifs at h with h₁ h₂ <;>
    simp only [bind_eq_ok, pure_eq_ok, register_eq_ok, identifier_eq_ok] at h
  · obtain ⟨d, hd, n, hn, rfl⟩ := h
    exact .load op hd hn
  · obtain ⟨d, hd, b, hb, o, ho, rfl⟩ := h
    exact .loadOffset op (not_not.1 h₁) hd hb ho
  · obtain ⟨d, hd, r, hr, rfl⟩ := h
    exact .loadReg op (not_not.1 h₁) (not_not.1 h₂) hd hr

theorem denotes_of_writing (op : s.op = "store") (h : s.writing = .ok st) : s.Denotes st := by
  unfold writing srcReg nameField at h
  split_ifs at h with h₁ h₂ <;>
    simp only [bind_eq_ok, pure_eq_ok, register_eq_ok, identifier_eq_ok] at h
  · obtain ⟨n, hn, r, hr, rfl⟩ := h
    exact .store op hn hr
  · obtain ⟨b, hb, o, ho, r, hr, rfl⟩ := h
    exact .storeOffset op (not_not.1 h₁) hb ho hr
  · obtain ⟨a, ha, r, hr, rfl⟩ := h
    exact .storeReg op (not_not.1 h₁) (not_not.1 h₂) ha hr

theorem denotes_of_invocation (op : s.op = "call") (h : s.invocation = .ok st) : s.Denotes st := by
  unfold invocation at h
  simp only [bind_eq_ok, arguments_eq_ok, identifier_eq_ok] at h
  obtain ⟨as, has, c, hc, h⟩ := h
  split_ifs at h with h₁ <;> simp only [bind_eq_ok, pure_eq_ok, register_eq_ok] at h
  · obtain ⟨r, rfl, rfl⟩ := h
    exact .call op hc has h₁
  · obtain ⟨r, hr, rfl⟩ := h
    exact .callOut op hc has hr

theorem denotes_of_toStatement (h : s.toStatement = .ok st) : s.Denotes st := by
  unfold toStatement destReg srcReg constant nameField at h
  -- the operations are tried in order
  obtain ⟨op, h⟩ | ⟨-, h⟩ := ite_eq_iff.1 h
  · exact denotes_of_addition op h
  obtain ⟨op, h⟩ | ⟨-, h⟩ := ite_eq_iff.1 h
  · exact denotes_of_conjunction op h
  obtain ⟨op, h⟩ | ⟨-, h⟩ := ite_eq_iff.1 h
  · exact denotes_of_comparison op h
  obtain ⟨op, h⟩ | ⟨-, h⟩ := ite_eq_iff.1 h
  · exact denotes_of_bitTest op h
  obtain ⟨op, h⟩ | ⟨-, h⟩ := ite_eq_iff.1 h
  · exact denotes_of_jump op h
  obtain ⟨op, h⟩ | ⟨-, h⟩ := ite_eq_iff.1 h
  · simp only [bind_eq_ok, pure_eq_ok, identifier_eq_ok] at h
    obtain ⟨n, hn, rfl⟩ := h
    exact .label op hn
  obtain ⟨op, h⟩ | ⟨-, h⟩ := ite_eq_iff.1 h
  · exact denotes_of_reading op h
  obtain ⟨op, h⟩ | ⟨-, h⟩ := ite_eq_iff.1 h
  · simp only [bind_eq_ok, pure_eq_ok, register_eq_ok, identifier_eq_ok] at h
    obtain ⟨d, hd, n, hn, rfl⟩ := h
    exact .loadAddr op hd hn
  obtain ⟨op, h⟩ | ⟨-, h⟩ := ite_eq_iff.1 h
  · exact denotes_of_writing op h
  obtain ⟨op, h⟩ | ⟨-, h⟩ := ite_eq_iff.1 h
  · simp only [bind_eq_ok, pure_eq_ok, register_eq_ok, literal_eq_ok] at h
    obtain ⟨d, hd, v, hv, rfl⟩ := h
    exact .set op hd hv
  obtain ⟨op, h⟩ | ⟨-, h⟩ := ite_eq_iff.1 h
  · simp only [bind_eq_ok, pure_eq_ok, register_eq_ok, literal_eq_ok] at h
    obtain ⟨d, hd, r, hr, v, hv, rfl⟩ := h
    exact .shiftLeft op hd hr hv
  obtain ⟨op, h⟩ | ⟨-, h⟩ := ite_eq_iff.1 h
  · exact denotes_of_invocation op h
  obtain ⟨op, h⟩ | ⟨-, h⟩ := ite_eq_iff.1 h
  · obtain rfl := pure_eq_ok.1 h
    exact .nop op
  obtain ⟨op, h⟩ | ⟨-, h⟩ := ite_eq_iff.1 h
  · simp only [bind_eq_ok, pure_eq_ok, identifier_eq_ok] at h
    obtain ⟨n, hn, rfl⟩ := h
    exact .declare op hn
  obtain ⟨op, h⟩ | ⟨-, h⟩ := ite_eq_iff.1 h
  · obtain rfl := pure_eq_ok.1 h
    exact .leave op
  split at h <;> cases h

theorem Denotes.toStatement_eq_ok (h : s.Denotes st) : s.toStatement = .ok st := by
  have hreg {t : Text} {r : Register} (h : IsRegister t r) (field : Text) :
      register field t = .ok r := register_eq_ok.2 h
  have hlit {t : Text} {l : Literal} (h : IsLiteral t l) (field : Text) :
      literal field t = .ok l := literal_eq_ok.2 h
  have hname {t n : Text} (h : IsName t n) (field : Text) :
      identifier field t = .ok n := identifier_eq_ok.2 h
  have hargs {as : List StumpGen.Argument} (h : List.Forall₂ Argument.Denotes s.args as) :
      s.arguments = .ok as := arguments_eq_ok.2 h
  unfold toStatement destReg srcReg constant nameField
  cases h with
  | addReg op hd hl hr =>
    simp +decide [op, addition, destReg, leftReg, rightReg, hl.ne_nil, hr.ne_nil, hreg hd, hreg hl,
      hreg hr]
    rfl
  | addImm op hr hd hl hv =>
    simp +decide [op, addition, destReg, leftReg, constant, hr, hl.ne_nil, hreg hd, hreg hl,
      hlit hv]
    rfl
  | addAssignReg op hl hd hs =>
    simp +decide [op, addition, destReg, srcReg, hl, hs.ne_nil, hreg hd, hreg hs]
    rfl
  | addAssignImm op hl hs hd hv =>
    simp +decide [op, addition, destReg, constant, hl, hs, hreg hd, hlit hv]
    rfl
  | andReg op hd hl hr =>
    simp +decide [op, conjunction, destReg, leftReg, rightReg, hr.ne_nil, hreg hd, hreg hl, hreg hr]
    rfl
  | andImm op hr hd hl hv =>
    simp +decide [op, conjunction, destReg, leftReg, constant, hr, hreg hd, hreg hl, hlit hv]
    rfl
  | cmpReg op hl hr =>
    simp +decide [op, comparison, leftReg, rightReg, hr.ne_nil, hreg hl, hreg hr]
    rfl
  | cmpImm op hr hl hv =>
    simp +decide [op, comparison, leftReg, constant, hr, hreg hl, hlit hv]
    rfl
  | testReg op hl hr =>
    simp +decide [op, bitTest, leftReg, rightReg, hr.ne_nil, hreg hl, hreg hr]
    rfl
  | testImm op hr hl hv =>
    simp +decide [op, bitTest, leftReg, constant, hr, hreg hl, hlit hv]
    rfl
  | goto op hc hn =>
    simp +decide [op, jump, hc, hname hn]
  | gotoCond op hc hn =>
    simp +decide [op, jump, hc, hname hn]
  | label op hn =>
    simp +decide [op, hname hn]
  | load op hd hn =>
    simp +decide [op, reading, destReg, nameField, hn.ne_nil, hreg hd, hname hn]
    rfl
  | loadOffset op hn hd hb ho =>
    simp +decide [op, reading, destReg, hn, hb.ne_nil, hreg hd, hreg hb, hreg ho]
    rfl
  | loadReg op hn hb hd hs =>
    simp +decide [op, reading, destReg, srcReg, hn, hb, hreg hd, hreg hs]
    rfl
  | loadAddr op hd hn =>
    simp +decide [op, hreg hd, hname hn]
    rfl
  | store op hn hs =>
    simp +decide [op, writing, nameField, srcReg, hn.ne_nil, hname hn, hreg hs]
    rfl
  | storeOffset op hn hb ho hs =>
    simp +decide [op, writing, srcReg, hn, hb.ne_nil, hreg hb, hreg ho, hreg hs]
    rfl
  | storeReg op hn hb ha hs =>
    simp +decide [op, writing, srcReg, hn, hb, hreg ha, hreg hs]
    rfl
  | set op hd hv =>
    simp +decide [op, hreg hd, hlit hv]
    rfl
  | shiftLeft op hd hs hv =>
    simp +decide [op, hreg hd, hreg hs, hlit hv]
    rfl
  | call op hc has ho =>
    simp +decide [op, invocation, hargs has, hname hc, ho]
    rfl
  | callOut op hc has ho =>
    simp +decide [op, invocation, hargs has, hname hc, ho.ne_nil, hreg ho]
    rfl
  | nop op => simp +decide [op]
  | declare op hn =>
    simp +decide [op, hname hn]
  | leave op => simp +decide [op]

/-- **The converter gives what a statement stands for**, if it stands for anything. -/
theorem toStatement_eq_ok : s.toStatement = .ok st ↔ s.Denotes st :=
  ⟨denotes_of_toStatement, Denotes.toStatement_eq_ok⟩

end Statement

/-- The record of a statement stands for one. -/
def Statement.IsConvertible (s : Statement) : Prop := ∃ st, s.Denotes st

/-- The record of an element stands for one. -/
def Element.IsConvertible (e : Element) : Prop := ∃ x, e.Denotes x

/-- Where the flaw of an element lies that stands for nothing.  Without a name its place is not
known, and with one the statements count only if there is nothing wrong with the parameters. -/
inductive Element.FlawAt (e : Element) : Location → Prop
  | name (h : Name.isValid e.name = false) : FlawAt e {}
  | declaration (h : Name.isValid e.name = true)
      (hf : e.kind = "function" → ∃ p ∈ e.params, Name.isValid p = false) :
    FlawAt e { element := e.name }
  | statement {before s after} (h : Name.isValid e.name = true) (hf : e.kind = "function")
      (hp : ∀ p ∈ e.params, Name.isValid p = true) (hbody : e.body = before ++ s :: after)
      (hbefore : ∀ x ∈ before, x.IsConvertible) (hs : ¬ s.IsConvertible) :
    FlawAt e { element := e.name, statement := before.length + 1 }

section Located

variable {α : Type} {place : Location} {r : Except Error α}

theorem located_eq_ok {a : α} : located place r = .ok a ↔ r = .ok a := by
  cases r <;> simp [located]

theorem located_eq_error {f : Fault} (h : located place r = .error f) :
    (∃ e, r = .error e) ∧ f.code = .badInput ∧ f.location = place := by
  cases r with
  | ok a => cases h
  | error e =>
    cases h
    refine ⟨⟨e, rfl⟩, rfl, ?_⟩
    simp [Error.fault, Fault.within, Location.orElse]

end Located

namespace Element

variable {e : Element} {f : Fault}

theorem literals_eq_ok {vs : List Literal} :
    e.literals = .ok vs ↔ List.Forall₂ IsLiteral e.values vs :=
  mapM_zipIdx_eq_ok fun _ _ _ => literal_eq_ok

theorem parameters_eq_ok {ps : List Text} :
    e.parameters = .ok ps ↔ List.Forall₂ IsName e.params ps := by
  refine mapM_eq_ok fun p n => ?_
  by_cases hp : Name.isValid p = true
  · simp [hp, IsName, eq_comm]
  · simp [hp, IsName]

theorem statements_eq_ok {sts : List StumpGen.Statement} :
    e.statements = .ok sts ↔ List.Forall₂ Statement.Denotes e.body sts :=
  mapM_zipIdx_eq_ok fun _ _ _ => located_eq_ok.trans Statement.toStatement_eq_ok

theorem toElement_eq_ok {x : StumpGen.Element} (hn : Name.isValid e.name = true) :
    e.toElement = .ok x ↔ e.Denotes x := by
  have hname : IsName e.name e.name := ⟨hn, rfl⟩
  constructor
  · intro h
    unfold toElement at h
    -- the kinds are tried in order
    obtain ⟨kind, h⟩ | ⟨-, h⟩ := ite_eq_iff.1 h
    · simp only [bind_eq_ok, pure_eq_ok, located_eq_ok, literal_eq_ok] at h
      obtain ⟨v, hv, rfl⟩ := h
      exact .literal kind hname hv
    obtain ⟨kind, h⟩ | ⟨-, h⟩ := ite_eq_iff.1 h
    · simp only [bind_eq_ok, pure_eq_ok, located_eq_ok, literals_eq_ok] at h
      obtain ⟨vs, hvs, rfl⟩ := h
      exact .array kind hname hvs
    obtain ⟨kind, h⟩ | ⟨-, h⟩ := ite_eq_iff.1 h
    · simp only [bind_eq_ok, pure_eq_ok, located_eq_ok, literal_eq_ok] at h
      obtain ⟨v, hv, rfl⟩ := h
      exact .block kind hname hv
    obtain ⟨kind, h⟩ | ⟨-, h⟩ := ite_eq_iff.1 h
    · obtain rfl := pure_eq_ok.1 h
      exact .string kind hname
    obtain ⟨kind, h⟩ | ⟨-, h⟩ := ite_eq_iff.1 h
    · simp only [bind_eq_ok, pure_eq_ok, located_eq_ok, parameters_eq_ok, statements_eq_ok] at h
      obtain ⟨ps, hps, sts, hsts, rfl⟩ := h
      exact .function kind hname hps hsts
    split at h <;> cases h
  · intro h
    unfold toElement
    cases h with
    | literal kind hn hv =>
      obtain rfl := hn.2
      simp +decide [kind, literal_eq_ok.2 hv, located]
    | array kind hn hv =>
      obtain rfl := hn.2
      simp +decide [kind, literals_eq_ok.2 hv, located]
    | block kind hn hv =>
      obtain rfl := hn.2
      simp +decide [kind, literal_eq_ok.2 hv, located]
    | string kind hn =>
      obtain rfl := hn.2
      simp +decide [kind]
      rfl
    | @function f kind hn hp hb =>
      obtain ⟨name, params, body⟩ := f
      obtain rfl : name = e.name := hn.2
      simp +decide [kind, parameters_eq_ok.2 hp, statements_eq_ok.2 hb, located]
      rfl

theorem convert_eq_ok {i : Nat} {x : StumpGen.Element} : e.convert i = .ok x ↔ e.Denotes x := by
  by_cases hn : Name.isValid e.name = true
  · have hne : e.name ≠ [] := IsName.ne_nil ⟨hn, rfl⟩
    rw [convert, if_neg hne, if_pos hn]
    exact toElement_eq_ok hn
  · refine iff_of_false ?_ ?_
    · rw [convert, if_neg hn]
      split <;> exact nofun
    · intro h
      cases h with
      | literal _ h | array _ h | block _ h | string _ h | function _ h => exact hn h.1

theorem exists_of_parameters {err : Error} (h : e.parameters = .error err) :
    ∃ p ∈ e.params, Name.isValid p = false := by
  by_contra hall
  simp only [not_exists, not_and, Bool.not_eq_false] at hall
  have hok : e.parameters = .ok e.params :=
    parameters_eq_ok.2 (List.forall₂_same.2 fun p hp => ⟨hall p hp, rfl⟩)
  cases hok.symm.trans h

theorem valid_of_parameters {ps : List Text} (h : e.parameters = .ok ps) :
    ∀ p ∈ e.params, Name.isValid p = true := by
  have hnames : List.Forall₂ (fun t n => Name.isValid t = true ∧ n = t) e.params ps :=
    parameters_eq_ok.1 h
  exact ((List.forall₂_and_left _ _).1 hnames).1

/-- The first bad statement of a function with good parameters. -/
theorem flawAt_of_statements (hn : Name.isValid e.name = true) (kind : e.kind = "function")
    (hp : ∀ p ∈ e.params, Name.isValid p = true) (h : e.statements = .error f) :
    f.code = .badInput ∧ e.FlawAt f.location := by
  obtain ⟨before, s, after, hbody, hs, hbefore⟩ := mapM_zipIdx_eq_error h
  obtain ⟨⟨err, herr⟩, hcode, hloc⟩ := located_eq_error hs
  refine ⟨hcode, ?_⟩
  have hgood : ∀ x ∈ before, x.IsConvertible := by
    intro x hx
    obtain ⟨i, st, hst⟩ := hbefore x hx
    exact ⟨st, Statement.toStatement_eq_ok.1 (located_eq_ok.1 hst)⟩
  have hbad : ¬ s.IsConvertible := by
    rintro ⟨st, hst⟩
    cases (Statement.toStatement_eq_ok.2 hst).symm.trans herr
  rw [hloc, Nat.zero_add]
  exact .statement hn kind hp hbody hgood hbad

theorem toElement_eq_error (hn : Name.isValid e.name = true) (h : e.toElement = .error f) :
    f.code = .badInput ∧ e.FlawAt f.location := by
  -- what is wrong with an element, but not with one of its statements
  have hdecl {α : Type} {r : Except Error α}
      (hr : e.kind = "function" → ∃ p ∈ e.params, Name.isValid p = false)
      (h : located { element := e.name } r = .error f) :
      f.code = .badInput ∧ e.FlawAt f.location := by
    obtain ⟨-, hcode, hloc⟩ := located_eq_error h
    rw [hloc]
    exact ⟨hcode, .declaration hn hr⟩
  have hother {k : Text} (kind : e.kind = k) (hk : k ≠ "function") :
      e.kind = "function" → ∃ p ∈ e.params, Name.isValid p = false :=
    fun hf => absurd (kind.symm.trans hf) hk
  unfold toElement at h
  obtain ⟨kind, h⟩ | ⟨-, h⟩ := ite_eq_iff.1 h
  · obtain h | ⟨_, _, h⟩ := bind_eq_error.1 h
    · exact hdecl (hother kind (by decide)) h
    · cases h
  obtain ⟨kind, h⟩ | ⟨-, h⟩ := ite_eq_iff.1 h
  · obtain h | ⟨_, _, h⟩ := bind_eq_error.1 h
    · exact hdecl (hother kind (by decide)) h
    · cases h
  obtain ⟨kind, h⟩ | ⟨-, h⟩ := ite_eq_iff.1 h
  · obtain h | ⟨_, _, h⟩ := bind_eq_error.1 h
    · exact hdecl (hother kind (by decide)) h
    · cases h
  obtain ⟨kind, h⟩ | ⟨-, h⟩ := ite_eq_iff.1 h
  · cases h
  obtain ⟨kind, h⟩ | ⟨hf, h⟩ := ite_eq_iff.1 h
  · obtain h | ⟨ps, hps, h⟩ := bind_eq_error.1 h
    · obtain ⟨⟨err, herr⟩, -⟩ := located_eq_error h
      exact hdecl (fun _ => exists_of_parameters herr) h
    · obtain h | ⟨_, _, h⟩ := bind_eq_error.1 h
      · exact flawAt_of_statements hn kind (valid_of_parameters (located_eq_ok.1 hps)) h
      · cases h
  split at h <;> exact hdecl (fun h => absurd h hf) h

theorem convert_eq_error {i : Nat} (h : e.convert i = .error f) :
    f.code = .badInput ∧ e.FlawAt f.location := by
  unfold convert at h
  by_cases hn : Name.isValid e.name = true
  · have hne : e.name ≠ [] := IsName.ne_nil ⟨hn, rfl⟩
    rw [if_neg hne, if_pos hn] at h
    exact toElement_eq_error hn h
  · -- both ways to have no name leave the place unknown
    rw [if_neg hn] at h
    split at h <;> cases h <;> exact ⟨rfl, .name (Bool.eq_false_iff.2 hn)⟩

end Element

theorem program_eq_ok {d : Document} {p : Program} :
    d.program = .ok p ↔ List.Forall₂ Element.Denotes d.elements p :=
  mapM_zipIdx_eq_ok fun _ _ _ => Element.convert_eq_ok

/-- What is reported is the problem of the first element that stands for nothing. -/
theorem program_eq_error {d : Document} {f : Fault} (h : d.program = .error f) :
    f.code = .badInput ∧ ∃ before e after, d.elements = before ++ e :: after ∧
      (∀ x ∈ before, x.IsConvertible) ∧ ¬ e.IsConvertible ∧ e.FlawAt f.location := by
  obtain ⟨before, e, after, hsplit, he, hbefore⟩ := mapM_zipIdx_eq_error h
  obtain ⟨hcode, hflaw⟩ := Element.convert_eq_error he
  refine ⟨hcode, before, e, after, hsplit, ?_, ?_, hflaw⟩
  · intro x hx
    obtain ⟨i, y, hy⟩ := hbefore x hx
    exact ⟨y, Element.convert_eq_ok.1 hy⟩
  · rintro ⟨y, hy⟩
    cases (Element.convert_eq_ok.2 hy).symm.trans he

/-! ### What documents stand for is valid -/

theorem IsRegister.isValid {t : Text} {r : Register} (h : IsRegister t r) : r.isValid = true := by
  have hall : ∀ r ∈ Register.all, r.isValid = true := by decide
  exact hall r (List.mem_of_find?_eq_some h)

theorem IsName.isValid {t n : Text} (h : IsName t n) : Name.isValid n = true := h.2 ▸ h.1

/-- What holds of everything that records stand for holds of all items of a list. -/
theorem forall_of_forall₂ {α β : Type} {R : α → β → Prop} {Q : β → Prop} {xs : List α}
    {ys : List β} (hxs : List.Forall₂ R xs ys) (h : ∀ a b, R a b → Q b) : ∀ y ∈ ys, Q y := by
  induction hxs with
  | nil => simp
  | cons hx _ ih => exact List.forall_mem_cons.2 ⟨h _ _ hx, ih⟩

theorem Argument.Denotes.names_isValid {a : Argument} {x : StumpGen.Argument} (h : a.Denotes x) :
    ∀ n ∈ x.mentions, Name.isValid n = true := by
  cases h with
  | identifier hi => simpa [StumpGen.Argument.mentions] using hi.isValid
  | literal | register => exact nofun

theorem Argument.Denotes.registers_isValid {a : Argument} {x : StumpGen.Argument}
    (h : a.Denotes x) : ∀ r ∈ x.registers, r.isValid = true := by
  cases h with
  | register _ _ hr => simpa [StumpGen.Argument.registers] using hr.isValid
  | identifier | literal => exact nofun

theorem Statement.Denotes.names_isValid {s : Statement} {st : StumpGen.Statement}
    (h : s.Denotes st) : ∀ n ∈ st.mentions, Name.isValid n = true := by
  cases h with
  | goto _ _ hn | gotoCond _ _ hn | label _ hn | load _ _ hn | loadAddr _ _ hn | store _ hn _
  | declare _ hn => exact List.forall_mem_singleton.2 hn.isValid
  | call _ hc has | callOut _ hc has =>
    have hargs := forall_of_forall₂ has fun _ _ h => h.names_isValid
    exact List.forall_mem_cons.2 ⟨hc.isValid, List.forall_mem_flatMap.2 hargs⟩
  | _ => exact nofun

theorem Statement.Denotes.registers_isValid {s : Statement} {st : StumpGen.Statement}
    (h : s.Denotes st) : ∀ r ∈ st.registers, r.isValid = true := by
  cases h with
  | addReg _ h₁ h₂ h₃ | andReg _ h₁ h₂ h₃ | loadOffset _ _ h₁ h₂ h₃ | storeOffset _ _ h₁ h₂ h₃ =>
    simp [StumpGen.Statement.registers, h₁.isValid, h₂.isValid, h₃.isValid]
  | addImm _ _ h₁ h₂ _ | addAssignReg _ _ h₁ h₂ | andImm _ _ h₁ h₂ _ | cmpReg _ h₁ h₂
  | testReg _ h₁ h₂ | loadReg _ _ _ h₁ h₂ | storeReg _ _ _ h₁ h₂ | shiftLeft _ h₁ h₂ _ =>
    simp [StumpGen.Statement.registers, h₁.isValid, h₂.isValid]
  | addAssignImm _ _ _ h₁ _ | cmpImm _ _ h₁ _ | testImm _ _ h₁ _ | load _ h₁ _ | loadAddr _ h₁ _
  | store _ _ h₁ | set _ h₁ _ => exact List.forall_mem_singleton.2 h₁.isValid
  | call _ _ has =>
    exact List.forall_mem_flatMap.2 (forall_of_forall₂ has fun _ _ h => h.registers_isValid)
  | callOut _ _ has ho =>
    have hargs := forall_of_forall₂ has fun _ _ h => h.registers_isValid
    refine List.forall_mem_append.2 ⟨?_, List.forall_mem_flatMap.2 hargs⟩
    split
    · exact nofun
    · exact List.forall_mem_singleton.2 ho.isValid
  | _ => exact nofun

theorem Statement.Denotes.isValid {s : Statement} {st : StumpGen.Statement} (h : s.Denotes st) :
    st.IsValid where
  names := h.names_isValid
  registers := h.registers_isValid
  condition c n hst := by
    subst hst
    cases h with
    | gotoCond _ hc _ => exact hc

theorem Element.Denotes.isValid {e : Element} {x : StumpGen.Element} (h : e.Denotes x) :
    x.IsValid := by
  cases h with
  | literal _ hn | array _ hn | block _ hn | string _ hn => exact hn.isValid
  | function _ hn hp hb =>
    exact ⟨hn.isValid, forall_of_forall₂ hp fun _ _ h => h.isValid,
      forall_of_forall₂ hb fun _ _ h => h.isValid⟩

/-- **The converter is a complete check for the code generator.**  A document is converted exactly
if all of its elements stand for something, and the program is what they stand for.  It is valid,
and so the code generator never finds it to be bad input.  Else the fault is placed at the first
element that stands for nothing, and in it at the first such statement. -/
theorem program_complete (d : Document) :
    (∀ p, d.program = .ok p ↔ List.Forall₂ Element.Denotes d.elements p) ∧
    (∀ p, d.program = .ok p → p.IsValid ∧
      ∀ o f, (compile p o).fault = some f → f.code ≠ .badInput) ∧
    ∀ f, d.program = .error f → f.code = .badInput ∧
      ∃ before e after, d.elements = before ++ e :: after ∧
        (∀ x ∈ before, x.IsConvertible) ∧ ¬ e.IsConvertible ∧ e.FlawAt f.location := by
  refine ⟨fun p => program_eq_ok, fun p hp => ?_, fun f hf => program_eq_error hf⟩
  have hvalid : p.IsValid :=
    forall_of_forall₂ (program_eq_ok.1 hp) fun _ _ h => h.isValid
  exact ⟨hvalid, fun o f hf => hvalid.compile_code_ne hf⟩

/-- A document that is as it should be but for the destination of the load, which is given. -/
def loading (dest : Text) : Document :=
  ⟨some
    [{ kind := "array", name := "table", values := [" 7 ", "0x10"] },
     { kind := "function", name := "idle", body := [{ op := "nop" }] },
     { kind := "function", name := "main", params := ["x"]
       body :=
         [{ op := "goto", label := "end", cond := "eq" },
          { op := "call", func := "main", args := [{ ident := "x" }], out := "R1" },
          { op := "load", dest, name := "x" }] }]⟩

theorem program_complete_loading :
    (∃ f, (loading "r9").program = .error f ∧
      f.location = { element := "main", statement := 3 } ∧ f.code = .badInput ∧
      ∃ before e after, (loading "r9").elements = before ++ e :: after ∧
        (∀ x ∈ before, x.IsConvertible) ∧ ¬ e.IsConvertible ∧ e.FlawAt f.location) ∧
    ∃ p, (loading "lr").program = .ok p ∧ p.IsValid ∧
      ∀ o f, (compile p o).fault = some f → f.code ≠ .badInput := by
  obtain ⟨-, -, hbad⟩ := program_complete (loading "r9")
  obtain ⟨-, hgood, -⟩ := program_complete (loading "lr")
  constructor
  · have hloc : (loading "r9").program.mapError Fault.location =
        .error { element := "main", statement := 3 } := by decide
    cases hf : (loading "r9").program with
    | ok p => rw [hf] at hloc; cases hloc
    | error f =>
      rw [hf] at hloc
      exact ⟨f, rfl, Except.error.inj hloc, hbad f hf⟩
  · have hok : (loading "lr").program.isOk = true := by decide
    cases hp : (loading "lr").program with
    | error f => rw [hp] at hok; cases hok
    | ok p => exact ⟨p, rfl, hgood p hp⟩

end Document

end StumpGen
