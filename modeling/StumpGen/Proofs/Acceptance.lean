import StumpGen.Proofs.Layout

/-!
# Which programs compile

A program is well formed if its names are declared once, its data fits into words and every
statement has operands that the target can take (`Program.WellFormed`).  Nothing in this file's
definitions looks at how code is made: they say what a reader of a program can check.

* `Lowered.exists_iff` : a statement has code exactly if it is well formed.
* `lowerBody_fails` : a body that cannot be lowered stops at its first statement that is not
  well formed.
* `compile_accepts` : **a program compiles exactly if it is well formed**, and if its declarations
  are not to blame, what stops it is placed at the first statement that is not well formed.
-/

namespace StumpGen

open Assembly Lowering Emitter

/-! ### Well-formed programs -/

/-- The literal has a value from `lo` to `hi`. -/
def Literal.FitsIn (l : Literal) (lo hi : Int) : Prop := ∃ v, l.value = .ok v ∧ lo ≤ v ∧ v ≤ hi

instance (l : Literal) (lo hi : Int) : Decidable (l.FitsIn lo hi) :=
  match h : l.value with
  | .ok v => decidable_of_iff (lo ≤ v ∧ v ≤ hi) (by simp [Literal.FitsIn, h])
  | .error e => isFalse (by simp [Literal.FitsIn, h])

/-- The data of a global fits into words. -/
def Data.WellFormed : Data → Prop
  | .array values => ∀ v ∈ values, v.FitsIn (-32768) 65535
  | .block size => size.FitsIn 0 65535
  | .literal value => value.FitsIn (-32768) 65535
  | .string text => ∀ r ∈ text.composed.runes, r.code ≤ 65535

instance : DecidablePred Data.WellFormed
  | .array values => inferInstanceAs (Decidable (∀ v ∈ values, v.FitsIn (-32768) 65535))
  | .block size => inferInstanceAs (Decidable (size.FitsIn 0 65535))
  | .literal value => inferInstanceAs (Decidable (value.FitsIn (-32768) 65535))
  | .string text => inferInstanceAs (Decidable (∀ r ∈ text.composed.runes, r.code ≤ 65535))

/-- Whatever data the element has fits into words. -/
def Element.HasFittingData : Element → Prop
  | .function _ => True
  | .global _ data => data.WellFormed

instance : DecidablePred Element.HasFittingData
  | .function _ => .isTrue trivial
  | .global _ data => inferInstanceAs (Decidable data.WellFormed)

/-- The variable is a global, or stands at one of the first 16 places of the frame. -/
def Function.Reaches (f : Function) (p : Program) (name : Text) : Prop :=
  name ∈ p.globals ∨ name ∈ f.frame ∧ f.frame.idxOf name ≤ 15

instance (f : Function) (p : Program) : DecidablePred (f.Reaches p) := fun name =>
  inferInstanceAs (Decidable (name ∈ p.globals ∨ name ∈ f.frame ∧ f.frame.idxOf name ≤ 15))

/-- An argument that a call in the function `f` can pass. -/
def Argument.WellFormed (p : Program) (f : Function) : Argument → Prop
  | .identifier name => f.Reaches p name
  | .literal value => value.FitsIn (-32768) 65535
  | .register reg => reg ∈ [.r1, .r2, .r3, .r4, .lr]

instance (p : Program) (f : Function) : DecidablePred (Argument.WellFormed p f)
  | .identifier name => inferInstanceAs (Decidable (f.Reaches p name))
  | .literal value => inferInstanceAs (Decidable (value.FitsIn (-32768) 65535))
  | .register reg => inferInstanceAs (Decidable (reg ∈ [Register.r1, .r2, .r3, .r4, .lr]))

/-- A statement that can stand in the function `f`. -/
def Statement.WellFormed (p : Program) (f : Function) : Statement → Prop
  | .addAssignImm dest value => dest.isValid = true ∧ value.FitsIn (-16) 15
  | .addAssignReg dest src => dest.isValid = true ∧ src.isValid = true
  | .addImm _ _ _ | .addReg _ _ _ => False
  | .andImm dest left value => dest.isValid = true ∧ left.isValid = true ∧ value.FitsIn (-16) 15
  | .andReg dest left right => dest.isValid = true ∧ left.isValid = true ∧ right.isValid = true
  | .cmpImm left value => left.isValid = true ∧ value.FitsIn (-16) 15
  | .cmpReg left right => left.isValid = true ∧ right.isValid = true
  | .testImm _ _ | .testReg _ _ => False
  | .goto _ | .label _ => True
  | .gotoCond cond _ => cond ≠ []
  | .load dest name | .loadAddr dest name => dest.isValid = true ∧ f.Reaches p name
  | .loadReg dest src => dest.isValid = true ∧ src.isValid = true
  | .loadOffset dest base offset =>
    dest.isValid = true ∧ base.isValid = true ∧ offset.isValid = true
  | .store name src => src.isValid = true ∧ f.Reaches p name
  | .storeReg addr src => addr.isValid = true ∧ src.isValid = true
  | .storeOffset base offset value =>
    base.isValid = true ∧ offset.isValid = true ∧ value.isValid = true
  | .set dest value => dest.isValid = true ∧ value.FitsIn (-32768) 65535
  | .shiftLeft dest src amount => dest.isValid = true ∧ src.isValid = true ∧ amount.FitsIn 0 15
  | .call callee args out =>
    (∃ g ∈ p.functions, g.name = callee ∧ g.arity = args.length) ∧ args.length ≤ 16 ∧
      f.frame.length ≤ 15 ∧ (out = .absent ∨ out.isValid = true) ∧ ∀ a ∈ args, a.WellFormed p f
  | .nop | .declare _ => True
  | .leave => False

instance (p : Program) (f : Function) : DecidablePred (Statement.WellFormed p f)
  | .addAssignImm .. | .addAssignReg .. | .andImm .. | .andReg .. | .cmpImm .. | .cmpReg ..
  | .load .. | .loadAddr .. | .loadReg .. | .loadOffset .. | .store .. | .storeReg ..
  | .storeOffset .. | .set .. | .shiftLeft .. | .call .. => inferInstanceAs (Decidable (_ ∧ _))
  | .gotoCond cond _ => inferInstanceAs (Decidable (cond ≠ []))
  | .goto .. | .label .. | .nop | .declare .. => .isTrue trivial
  | .addImm .. | .addReg .. | .testImm .. | .testReg .. | .leave => .isFalse id

/-- Declarations that do not clash, of data that fits into words. -/
structure Program.Declarable (p : Program) : Prop where
  functions : (p.functions.map Function.name).Nodup
  globals : p.globals.Nodup
  data : ∀ e ∈ p, e.HasFittingData

instance : DecidablePred Program.Declarable := fun p =>
  decidable_of_iff
    ((p.functions.map Function.name).Nodup ∧ p.globals.Nodup ∧ ∀ e ∈ p, e.HasFittingData)
    ⟨fun ⟨hf, hg, hd⟩ => ⟨hf, hg, hd⟩, fun ⟨hf, hg, hd⟩ => ⟨hf, hg, hd⟩⟩

/-- **A program that can be compiled.** -/
structure Program.WellFormed (p : Program) : Prop extends p.Declarable where
  statements : ∀ f ∈ p.functions, ∀ st ∈ f.body, st.WellFormed p f

instance : DecidablePred Program.WellFormed := fun p =>
  decidable_of_iff (p.Declarable ∧ ∀ f ∈ p.functions, ∀ st ∈ f.body, st.WellFormed p f)
    ⟨fun ⟨hd, hs⟩ => ⟨hd, hs⟩, fun h => ⟨h.toDeclarable, h.statements⟩⟩

/-- The statement is the first one of the program that is not well formed. -/
structure Site.IsFirstIllFormed {p : Program} (x : Site p) : Prop where
  earlier : ∀ g ∈ x.earlier, ∀ st ∈ g.body, st.WellFormed p g
  before : ∀ st ∈ x.before, st.WellFormed p x.function
  statement : ¬ x.statement.WellFormed p x.function

/-- The place of a statement: its function, and its number counted from one. -/
def Site.location {p : Program} (x : Site p) : Location where
  element := x.function.name
  statement := x.before.length + 1

namespace Lowering

/-! ### The first pass -/

theorem dataWord_eq_ok {l : Literal} {v : Int} :
    dataWord l = .ok v ↔ l.value = .ok v ∧ -32768 ≤ v ∧ v ≤ 65535 := by
  unfold dataWord Literal.word Literal.checkWord Literal.minWord Literal.maxWord
  cases l.value with
  | error e => simp [Except.mapError]
  | ok w =>
    by_cases hw : -32768 ≤ w ∧ w ≤ 65535
    · simp only [hw, and_self, ↓reduceIte, Except.mapError, Except.ok.injEq]
      constructor
      · rintro rfl; exact ⟨rfl, hw⟩
      · exact And.left
    · simp only [hw, ↓reduceIte, Except.mapError, reduceCtorEq, Except.ok.injEq, false_iff]
      rintro ⟨rfl, h⟩
      exact hw h

theorem fitsIn_iff_dataWord {l : Literal} :
    l.FitsIn (-32768) 65535 ↔ ∃ v, dataWord l = .ok v := by
  simp only [Literal.FitsIn, dataWord_eq_ok]

theorem arrayWords_eq_none {ls : List Literal} :
    (arrayWords ls).2 = none ↔ ∀ l ∈ ls, l.FitsIn (-32768) 65535 := by
  induction ls with
  | nil => simp [arrayWords]
  | cons l ls ih =>
    rw [arrayWords, List.forall_mem_cons, ← ih, fitsIn_iff_dataWord]
    cases dataWord l <;> simp

theorem stringWords_eq_none {name : Text} {rs : List Rune} :
    (stringWords name rs).2 = none ↔ ∀ r ∈ rs, r.code ≤ 65535 := by
  induction rs with
  | nil => simp [stringWords]
  | cons r rs ih =>
    rw [stringWords, List.forall_mem_cons, ← ih]
    have hr : (r.code : Int) ≤ Literal.maxWord ↔ r.code ≤ 65535 := by
      simp only [Literal.maxWord]
      omega
    by_cases h : r.code ≤ 65535
    · simp [hr, h]
    · simp [hr, h]

theorem dataWords_eq_none {name : Text} {data : Data} :
    (dataWords name data).2 = none ↔ data.WellFormed := by
  cases data with
  | array values => exact arrayWords_eq_none
  | string text => exact stringWords_eq_none
  | literal value =>
    rw [dataWords, Data.WellFormed, fitsIn_iff_dataWord]
    cases dataWord value <;> simp
  | block size =>
    rw [dataWords, Data.WellFormed]
    cases hd : dataWord size with
    | error e =>
      simp only [reduceCtorEq, false_iff]
      rintro ⟨v, hv, h₁, h₂⟩
      rw [dataWord_eq_ok.2 ⟨hv, by omega, h₂⟩] at hd
      cases hd
    | ok n =>
      obtain ⟨hv, h₁, h₂⟩ := dataWord_eq_ok.1 hd
      simp only [Literal.FitsIn, hv, Except.ok.injEq, exists_eq_left']
      by_cases hn : n < 0
      · simp only [hn, ↓reduceIte, reduceCtorEq, false_iff]
        omega
      · simp only [hn, ↓reduceIte, true_iff]
        omega

theorem runs_collect_data {p : Program} {s s' : Symbols} {es : List Emission} {u : Unit}
    (h : Runs (collect p) s es s' u) : ∀ e ∈ p, e.HasFittingData := by
  induction p generalizing s es with
  | nil => simp
  | cons e p ih =>
    simp only [collect, runs_bind] at h
    obtain ⟨_, _, _, _, he, hp, rfl⟩ := h
    refine List.forall_mem_cons.2 ⟨?_, ih hp⟩
    cases e with
    | function f => trivial
    | global name data => exact dataWords_eq_none.1 (runs_collectGlobal.1 he).2.1

theorem declarable_of_runs {p : Program} {s : Symbols} {es : List Emission} {u : Unit}
    (h : Runs (collect p) {} es s u) : p.Declarable where
  functions := (runs_collect_nodup h).2
  globals := (runs_collect_nodup h).1
  data := runs_collect_data h

/-- The first pass succeeds if nothing is declared twice, here or before, and all data fits. -/
theorem exists_runs_collect {p : Program} (h : p.Declarable) {s : Symbols}
    (hf : ∀ f ∈ p.functions, f.name ∉ s.functions.map Prod.fst)
    (hg : ∀ n ∈ p.globals, n ∉ s.globals) : ∃ es s', Runs (collect p) s es s' () := by
  induction p generalizing s with
  | nil => exact ⟨[], s, by simp [collect]⟩
  | cons e p ih =>
    obtain ⟨he, hd⟩ := List.forall_mem_cons.1 h.data
    cases e with
    | function f =>
      -- the functions are those of the rest behind this one, and the globals are the same
      have hfs : Program.functions (.function f :: p) = f :: Program.functions p := rfl
      rw [hfs, List.forall_mem_cons] at hf
      have hnodup := h.functions
      rw [hfs, List.map_cons, List.nodup_cons] at hnodup
      have hstep : Runs (collectFunction f) s [] (s.addFunction f) () :=
        runs_collectFunction.2 ⟨arity?_eq_none_iff.2 hf.1, rfl, rfl⟩
      obtain ⟨es, s', hp⟩ := ih ⟨hnodup.2, h.globals, hd⟩ (s := s.addFunction f) (fun g hg' => by
        simp only [Symbols.addFunction, List.map_cons, List.mem_cons, not_or]
        exact ⟨fun he => hnodup.1 (he ▸ List.mem_map_of_mem hg'), hf.2 g hg'⟩) hg
      exact ⟨_, s', runs_bind.2 ⟨_, _, (), es, hstep, hp, rfl⟩⟩
    | global name data =>
      have hgs : Program.globals (.global name data :: p) = name :: Program.globals p := rfl
      rw [hgs, List.forall_mem_cons] at hg
      have hnodup := h.globals
      rw [hgs, List.nodup_cons] at hnodup
      have hstep : Runs (collectGlobal name data) s _ (s.addGlobal name) () :=
        runs_collectGlobal.2 ⟨by simpa [Symbols.isGlobal] using hg.1,
          dataWords_eq_none.2 he, rfl, rfl⟩
      obtain ⟨es, s', hp⟩ := ih ⟨h.functions, hnodup.2, hd⟩ (s := s.addGlobal name) hf
        (fun n hn => by
        simp only [Symbols.addGlobal, List.mem_cons, not_or]
        exact ⟨fun he => hnodup.1 (he ▸ hn), hg.2 n hn⟩)
      exact ⟨_, s', runs_bind.2 ⟨_, _, (), es, hstep, hp, rfl⟩⟩

/-- A fault of the first pass lies in no statement. -/
theorem collectElement_fails {x : Element} {s : Symbols} {e : Fault}
    (h : Fails (collectElement x) s e) : e.location.statement = 0 := by
  cases x with
  | function f =>
    rcases fails_bind.1 h with h | ⟨_, _, s, -, h⟩
    · cases h
    · split at h
      · cases h; rfl
      · cases h
  | global name data =>
    rcases fails_bind.1 h with h | ⟨_, _, s, -, h⟩
    · cases h
    · split at h
      · cases h; rfl
      · rcases fails_bind.1 h with h | ⟨_, _, _, -, h⟩
        · cases h
        · simp only [codes, fails_emitAll_bind] at h
          cases hd : (dataWords name data).2 with
          | none => rw [hd] at h; cases h
          | some err => rw [hd] at h; cases h; rfl

theorem collect_fails {p : Program} {s : Symbols} {e : Fault} (h : Fails (collect p) s e) :
    e.location.statement = 0 := by
  induction p generalizing s with
  | nil => cases h
  | cons x p ih =>
    rcases fails_bind.1 h with h | ⟨_, _, _, -, h⟩
    · exact collectElement_fails h
    · exact ih h

/-! ### Statements -/

/-- The scope inside a function of a program. -/
structure Scope.IsOf (sc : Scope) (p : Program) (f : Function) : Prop where
  global : ∀ name, sc.symbols.isGlobal name = true ↔ name ∈ p.globals
  arity : ∀ name k, sc.symbols.arity? name = some k ↔ ∃ g ∈ p.functions, g.name = name ∧ g.arity = k
  frame : sc.frame = f.frame

section Statements

variable {p : Program} {f : Function} {sc : Scope} (hsc : sc.IsOf p f) (n : Nat)

theorem idxOf?_eq_some_iff {names : List Text} {name : Text} {i : Nat} :
    names.idxOf? name = some i ↔ name ∈ names ∧ names.idxOf name = i := by
  rw [List.idxOf_eq_getD_idxOf?]
  cases h : names.idxOf? name with
  | none => simp [List.idxOf?_eq_none_iff.1 h]
  | some j =>
    have hm : name ∈ names := by
      by_contra hn
      rw [List.idxOf?_eq_none_iff.2 hn] at h
      cases h
    simp [hm]

include hsc

/-- A variable that is found is a global or has a place that can be reached. -/
theorem Scope.IsOf.reaches_iff {name : Text} :
    f.Reaches p name ↔
      sc.symbols.isGlobal name = true ∨ ∃ i, sc.resolve name = .ok (.slot i) := by
  rw [Function.Reaches, hsc.global]
  by_cases hg : name ∈ p.globals
  · simp [hg]
  · have hn : sc.symbols.isGlobal name = false := by
      rw [← Bool.not_eq_true, hsc.global]
      exact hg
    simp only [hg, false_or, resolve_eq_slot, hn, true_and, hsc.frame, idxOf?_eq_some_iff, maxImm]
    constructor
    · rintro ⟨hm, hi⟩
      exact ⟨_, ⟨hm, rfl⟩, by omega⟩
    · rintro ⟨i, ⟨hm, rfl⟩, hi⟩
      exact ⟨hm, by omega⟩

theorem Loaded.exists_iff {a : Argument} : (∃ es t, Loaded sc a n es t) ↔ a.WellFormed p f := by
  cases a with
  | identifier name =>
    rw [Argument.WellFormed, hsc.reaches_iff]
    constructor
    · rintro ⟨es, t, h⟩
      cases h with
      | global h => exact .inl h
      | slot h => exact .inr ⟨_, h⟩
    · rintro (h | ⟨i, h⟩)
      · exact ⟨_, _, .global h⟩
      · exact ⟨_, _, .slot h⟩
  | literal l =>
    constructor
    · rintro ⟨es, t, h⟩
      cases h with
      | @small _ _ v h hv =>
        simp only [minImm, maxImm] at hv
        exact ⟨v, h, by omega, by omega⟩
      | @wide _ _ v h hv hw => exact ⟨v, h, hw⟩
    · rintro ⟨v, h, hw⟩
      by_cases hv : minImm ≤ v ∧ v ≤ maxImm
      · exact ⟨_, _, .small h hv⟩
      · exact ⟨_, _, .wide h hv hw⟩
  | register r =>
    have hslot : (savedSlots.lookup r.target).isSome = true ∧ r.isValid = true ↔
        r ∈ [Register.r1, .r2, .r3, .r4, .lr] := by
      cases r with
      | undefined name => simp [Register.isValid]
      | _ => decide
    rw [Argument.WellFormed, ← hslot, Option.isSome_iff_exists]
    constructor
    · rintro ⟨es, t, h⟩
      cases h with
      | register h hr => exact ⟨⟨_, h⟩, hr⟩
    · rintro ⟨⟨slot, h⟩, hr⟩
      exact ⟨_, _, .register h hr⟩

theorem Passed.exists_iff {k : Nat} {args : List Argument} :
    (∃ es t, Passed sc k args n es t) ↔ ∀ a ∈ args, a.WellFormed p f := by
  induction args generalizing k n with
  | nil => simpa using ⟨_, _, Passed.nil⟩
  | cons a as ih =>
    rw [List.forall_mem_cons]
    constructor
    · rintro ⟨es, t, h⟩
      cases h with
      | cons ha has => exact ⟨(Loaded.exists_iff hsc n).1 ⟨_, _, ha⟩, (ih _).1 ⟨_, _, has⟩⟩
    · rintro ⟨ha, has⟩
      obtain ⟨_, m, ha⟩ := (Loaded.exists_iff hsc n).2 ha
      obtain ⟨_, _, has⟩ := (ih m).2 has
      exact ⟨_, _, .cons ha has⟩

theorem Callable.iff {callee : Text} {args : List Argument} {out : Register} :
    Callable sc callee args out ↔
      (∃ g ∈ p.functions, g.name = callee ∧ g.arity = args.length) ∧ args.length ≤ 16 ∧
        f.frame.length ≤ 15 ∧ (out = .absent ∨ out.isValid = true) := by
  rw [← hsc.arity, ← hsc.frame]
  constructor
  · intro h
    exact ⟨h.arity, h.args_le, h.frame_le, Decidable.or_iff_not_imp_left.2 h.out_valid⟩
  · rintro ⟨h₁, h₂, h₃, h₄⟩
    exact ⟨h₁, h₂, h₃, Decidable.or_iff_not_imp_left.1 h₄⟩

/-- **A statement has code exactly if it is well formed.** -/
theorem Lowered.exists_iff {st : Statement} :
    (∃ es t, Lowered sc st n es t) ↔ st.WellFormed p f := by
  constructor
  · rintro ⟨es, t, h⟩
    cases h with
    | addAssignImm hd h hv => exact ⟨hd, _, h, hv⟩
    | addAssignReg hd hs => exact ⟨hd, hs⟩
    | andImm hd hl h hv => exact ⟨hd, hl, _, h, hv⟩
    | andReg hd hl hr => exact ⟨hd, hl, hr⟩
    | cmpImm hl h hv => exact ⟨hl, _, h, hv⟩
    | cmpReg hl hr => exact ⟨hl, hr⟩
    | goto | label | nop | declare => trivial
    | gotoCond h => exact h
    | loadGlobal hd h | addrGlobal hd h | storeGlobal hd h =>
      exact ⟨hd, hsc.reaches_iff.2 (.inl h)⟩
    | loadSlot hd h | addrSlot hd h | storeSlot hd h =>
      exact ⟨hd, hsc.reaches_iff.2 (.inr ⟨_, h⟩)⟩
    | loadReg hd hs => exact ⟨hd, hs⟩
    | loadOffset hd hb ho => exact ⟨hd, hb, ho⟩
    | storeReg ha hs => exact ⟨ha, hs⟩
    | storeOffset hb ho hv => exact ⟨hb, ho, hv⟩
    | setSmall hd h hv =>
      simp only [minImm, maxImm] at hv
      exact ⟨hd, _, h, by omega, by omega⟩
    | setWide hd h hv hw => exact ⟨hd, _, h, hw⟩
    | shiftLeft hd hs h hk => exact ⟨hd, hs, _, h, Int.natCast_nonneg _, hk⟩
    | call hc ha =>
      obtain ⟨h₁, h₂, h₃, h₄⟩ := (Callable.iff hsc).1 hc
      exact ⟨h₁, h₂, h₃, h₄, (Passed.exists_iff hsc n).1 ⟨_, _, ha⟩⟩
  · intro h
    cases st with
    | addImm _ _ _ | addReg _ _ _ | testImm _ _ | testReg _ _ | leave => exact h.elim
    | addAssignImm dest value =>
      obtain ⟨hd, v, h, hv⟩ := h
      exact ⟨_, _, .addAssignImm hd h hv⟩
    | addAssignReg dest src => exact ⟨_, _, .addAssignReg h.1 h.2⟩
    | andImm dest left value =>
      obtain ⟨hd, hl, v, h, hv⟩ := h
      exact ⟨_, _, .andImm hd hl h hv⟩
    | andReg dest left right => exact ⟨_, _, .andReg h.1 h.2.1 h.2.2⟩
    | cmpImm left value =>
      obtain ⟨hl, v, h, hv⟩ := h
      exact ⟨_, _, .cmpImm hl h hv⟩
    | cmpReg left right => exact ⟨_, _, .cmpReg h.1 h.2⟩
    | goto target => exact ⟨_, _, .goto⟩
    | gotoCond cond target => exact ⟨_, _, .gotoCond h⟩
    | label name => exact ⟨_, _, .label⟩
    | load dest name =>
      obtain ⟨hd, hr⟩ := h
      rcases hsc.reaches_iff.1 hr with hg | ⟨i, hi⟩
      · exact ⟨_, _, .loadGlobal hd hg⟩
      · exact ⟨_, _, .loadSlot hd hi⟩
    | loadAddr dest name =>
      obtain ⟨hd, hr⟩ := h
      rcases hsc.reaches_iff.1 hr with hg | ⟨i, hi⟩
      · exact ⟨_, _, .addrGlobal hd hg⟩
      · exact ⟨_, _, .addrSlot hd hi⟩
    | loadReg dest src => exact ⟨_, _, .loadReg h.1 h.2⟩
    | loadOffset dest base offset => exact ⟨_, _, .loadOffset h.1 h.2.1 h.2.2⟩
    | store name src =>
      obtain ⟨hs, hr⟩ := h
      rcases hsc.reaches_iff.1 hr with hg | ⟨i, hi⟩
      · exact ⟨_, _, .storeGlobal hs hg⟩
      · exact ⟨_, _, .storeSlot hs hi⟩
    | storeReg addr src => exact ⟨_, _, .storeReg h.1 h.2⟩
    | storeOffset base offset value => exact ⟨_, _, .storeOffset h.1 h.2.1 h.2.2⟩
    | set dest value =>
      obtain ⟨hd, v, h, hw⟩ := h
      by_cases hv : minImm ≤ v ∧ v ≤ maxImm
      · exact ⟨_, _, .setSmall hd h hv⟩
      · exact ⟨_, _, .setWide hd h hv hw⟩
    | shiftLeft dest src amount =>
      obtain ⟨hd, hs, v, h, h₀, hv⟩ := h
      obtain ⟨k, rfl⟩ := Int.eq_ofNat_of_zero_le h₀
      exact ⟨_, _, .shiftLeft hd hs h hv⟩
    | call callee args out =>
      obtain ⟨h₁, h₂, h₃, h₄, ha⟩ := h
      obtain ⟨_, _, ha⟩ := (Passed.exists_iff hsc n (k := 0)).2 ha
      exact ⟨_, _, .call ((Callable.iff hsc).2 ⟨h₁, h₂, h₃, h₄⟩) ha⟩
    | nop => exact ⟨_, _, .nop⟩
    | declare name => exact ⟨_, _, .declare⟩

/-! ### Bodies and functions -/

theorem exists_runs_lowerStatement {st : Statement} :
    (∃ es t, Runs (lowerStatement sc st) n es t ()) ↔ st.WellFormed p f := by
  simp only [runs_lowerStatement]
  exact Lowered.exists_iff hsc n

/-- **A body stops at its first statement that is not well formed.** -/
theorem lowerBody_fails {k : Nat} {a : Bool} {sts : List Statement} {e : Fault}
    (h : Fails (lowerBody sc k a sts) n e) :
    ∃ before st after, sts = before ++ st :: after ∧ (∀ st' ∈ before, st'.WellFormed p f) ∧
      ¬ st.WellFormed p f ∧
      e.location = { element := sc.function, statement := (k + before.length : Nat) } := by
  induction sts generalizing k a n with
  | nil => cases h
  | cons st sts ih =>
    -- neither the blank line in front of a statement nor the tracer fails
    have hst : Fails (do
        (lowerStatement sc st).mapError fun e =>
          e.fault.within { element := sc.function, statement := k }
        lowerBody sc (k + 1) (!st.locals.isEmpty) sts) n e := by
      cases a with
      | true => simpa [lowerBody, fails_trace_bind] using h
      | false => simpa [lowerBody, fails_emitAll_bind, fails_trace_bind] using h
    rcases fails_bind.1 hst with hst | ⟨es, m, u, hst, hsts⟩
    · obtain ⟨e', he', rfl⟩ := fails_mapError.1 hst
      refine ⟨[], st, sts, rfl, by simp, fun hw => ?_, rfl⟩
      obtain ⟨es, t, hr⟩ := (exists_runs_lowerStatement hsc n).2 hw
      exact hr.not_fails _ he'
    · have hw := (exists_runs_lowerStatement hsc n).1 ⟨_, _, runs_mapError.1 hst⟩
      obtain ⟨before, st', after, rfl, hb, hn, he⟩ := ih m hsts
      refine ⟨st :: before, st', after, rfl, List.forall_mem_cons.2 ⟨hw, hb⟩, hn, ?_⟩
      rw [he, List.length_cons, Nat.add_right_comm, Nat.add_assoc]

end Statements

theorem lowerFunction_fails {s : Symbols} {f : Function} {n : Nat} {e : Fault}
    (h : Fails (lowerFunction s f) n e) :
    Fails (lowerBody (.ofFunction s f) 1 false f.body) n e := by
  simp only [lowerFunction, fails_trace_bind, fails_emitAll_bind] at h
  rcases fails_bind.1 h with h | ⟨_, _, _, -, h⟩
  · exact h
  · -- the last lines of a function do not fail
    simp only [comment, code, fails_emitAll_bind] at h
    cases h

/-- The second pass stops at the first function that cannot be lowered. -/
theorem generate_fails {s : Symbols} {fs : List Function} {n : Nat} {e : Fault}
    (h : Compilation.firstFault (generate s n fs) = some e) :
    ∃ earlier f later m, fs = earlier ++ f :: later ∧ Fails (lowerFunction s f) m e ∧
      ∀ g ∈ earlier, ∃ l es t, Runs (lowerFunction s g) l es t () := by
  induction fs generalizing n with
  | nil => cases h
  | cons f fs ih =>
    rw [generate] at h
    cases hr : (lowerFunction s f n).result with
    | error e' =>
      simp only [hr, Compilation.firstFault, List.findSome?_cons, Option.some.injEq] at h
      exact ⟨[], f, fs, n, rfl, h ▸ hr, by simp⟩
    | ok u =>
      simp only [hr, Compilation.firstFault, List.findSome?_cons] at h
      obtain ⟨earlier, g, later, m, rfl, hg, he⟩ := ih h
      exact ⟨f :: earlier, g, later, m, rfl, hg,
        List.forall_mem_cons.2 ⟨⟨n, _, _, runs_of_result hr⟩, he⟩⟩

/-- Inside a function of a program, the scope is that of the program. -/
theorem isOf_ofFunction {p : Program} {data : List Emission} {symbols : Symbols}
    (h : Runs (collect p) {} data symbols ()) (f : Function) :
    (Scope.ofFunction symbols f).IsOf p f where
  global name := by
    obtain ⟨-, hg, -⟩ := runs_collect h
    simp [Scope.ofFunction, Symbols.isGlobal, hg]
  arity name k := by
    obtain ⟨-, -, hf, -, hn⟩ := runs_collect h
    rw [Scope.ofFunction, Symbols.arity?, Text.lookup_eq_some_iff (hn List.nodup_nil), hf]
    simp
  frame := rfl

end Lowering

/-- What stops a program whose declarations are fine is placed at its first statement that is not
well formed. -/
theorem Program.Declarable.fault_at {p : Program} (hd : p.Declarable) {o : Options} {e : Fault}
    (he : (compile p o).fault = some e) :
    ∃ x : Site p, x.IsFirstIllFormed ∧ e.location = x.location := by
  obtain ⟨data, symbols, hc⟩ := exists_runs_collect hd (s := {}) (by simp) (by simp)
  rw [compile_fault, hc.result, Program.lowered, hc.state] at he
  obtain ⟨earlier, f, later, m, hfs, hf, hearlier⟩ := generate_fails he
  obtain ⟨before, st, after, hbody, hbefore, hst, hloc⟩ :=
    lowerBody_fails (isOf_ofFunction hc f) m (lowerFunction_fails hf)
  refine ⟨⟨earlier, f, later, hfs, before, st, after, hbody⟩, ⟨?_, hbefore, hst⟩, ?_⟩
  · intro g hg st hst
    obtain ⟨l, es, t, hr⟩ := hearlier g hg
    obtain ⟨body, hr, -⟩ := runs_lowerFunction.1 hr
    obtain ⟨m, es, t, hl, -⟩ := (runs_lowerBody_mem hr).2 st hst
    exact (Lowered.exists_iff (isOf_ofFunction hc g) m).1 ⟨es, t, hl⟩
  · rw [hloc, Nat.add_comm]
    rfl

theorem wellFormed_of_compile {p : Program} {o : Options} (h : (compile p o).fault = none) :
    p.WellFormed := by
  obtain ⟨x, -⟩ := compile_emissions h
  refine ⟨declarable_of_runs x.collected, fun f hf st hst => ?_⟩
  obtain ⟨m, es, t, hl, -⟩ := (runs_lowerFunctions_mem x.generated).2 f hf st hst
  exact (Lowered.exists_iff (isOf_ofFunction x.collected f) m).1 ⟨es, t, hl⟩

theorem compile_fault_eq_none {p : Program} {o : Options} :
    (compile p o).fault = none ↔ p.WellFormed := by
  refine ⟨wellFormed_of_compile, fun h => ?_⟩
  cases he : (compile p o).fault with
  | none => rfl
  | some e =>
    obtain ⟨x, hx, -⟩ := h.toDeclarable.fault_at he
    refine absurd (h.statements x.function ?_ x.statement ?_) hx.statement
    · simp [x.functions_eq]
    · simp [x.body_eq]

/-- **A program compiles exactly if it is well formed.**  What stops it is placed in no statement if
its declarations are to blame, and else at the first statement that is not well formed. -/
theorem compile_accepts (p : Program) (o : Options) :
    ((compile p o).fault = none ↔ p.WellFormed) ∧
      ∀ e, (compile p o).fault = some e →
        (¬ p.Declarable → e.location.statement = 0) ∧
        (p.Declarable → ∃ x : Site p, x.IsFirstIllFormed ∧ e.location = x.location) := by
  refine ⟨compile_fault_eq_none, fun e he => ⟨fun hd => ?_, fun hd => hd.fault_at he⟩⟩
  rw [compile_fault] at he
  cases hc : (collect p {}).result with
  | ok u => exact absurd (declarable_of_runs (runs_of_result hc)) hd
  | error e' =>
    rw [hc] at he
    obtain rfl := Option.some.inj he
    exact collect_fails hc

/-- A program whose second function reads a variable that is not there. -/
def strayVariable : Program :=
  [.global "total" (.array [{ kind := .decimal, text := "65535" }]),
   .function
    { name := "add", params := ["x"]
      body := [.load .r1 "x", .load .r2 "total", .addAssignReg .r2 .r1, .store "total" .r2] },
   .function
    { name := "main"
      body := [.declare "y", .call "add" [.identifier "y"] .absent, .load .r1 "x", .leave] }]

theorem compile_accepts_strayVariable :
    ¬ strayVariable.WellFormed ∧ (compile strayVariable {}).fault ≠ none ∧
      strayVariable.Declarable ∧
      ∃ e, (compile strayVariable {}).fault = some e ∧
        e.location = { element := "main", statement := 3 } ∧
        ∃ x : Site strayVariable, x.IsFirstIllFormed ∧ e.location = x.location := by
  have hw : ¬ strayVariable.WellFormed := by decide
  have hd : strayVariable.Declarable := by decide
  obtain ⟨haccepts, hplace⟩ := compile_accepts strayVariable {}
  have hf : (compile strayVariable {}).fault ≠ none := fun h => hw (haccepts.1 h)
  obtain ⟨e, he⟩ := Option.ne_none_iff_exists'.1 hf
  have hloc : (compile strayVariable {}).fault.map Fault.location =
      some { element := "main", statement := 3 } := by decide
  rw [he] at hloc
  exact ⟨hw, hf, hd, e, he, Option.some.inj hloc, (hplace e he).2 hd⟩

end StumpGen
