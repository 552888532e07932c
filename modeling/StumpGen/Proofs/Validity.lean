import StumpGen.Proofs.Acceptance
import StumpGen.Proofs.Atomicity

/-!
# Valid programs

The types of programs admit texts that are no names, register fields that name no register and jumps
without a condition.  A program without these is valid (`Program.IsValid`).  A valid program need
not compile, as it may refer to what is not there, but it is never blamed for being bad input.

* `Emitter.FailsOnly` : all faults of a piece of code generation have a property.  It is proved for
  a composed piece from its parts.
* `lowerStatement_failsOnly` : lowering a valid statement.
* `Program.IsValid.compile_code_ne` : **no valid program is bad input**, whatever the options are.
-/

namespace StumpGen

open Assembly Lowering Emitter

/-! ### What programs mention -/

/-- The names in an argument. -/
def Argument.mentions : Argument → List Text
  | .identifier name => [name]
  | .literal _ | .register _ => []

/-- The register fields of an argument. -/
def Argument.registers : Argument → List Register
  | .register reg => [reg]
  | .identifier _ | .literal _ => []

namespace Statement

/-- The names in a statement: of labels, variables, locals and functions. -/
def mentions : Statement → List Text
  | .goto name | .gotoCond _ name | .label name | .load _ name | .loadAddr _ name | .store name _
  | .declare name => [name]
  | .call callee args _ => callee :: args.flatMap Argument.mentions
  | _ => []

/-- The register fields of a statement.  The one for the result of a call counts if it is set. -/
def registers : Statement → List Register
  | .addAssignImm dest _ | .load dest _ | .loadAddr dest _ | .set dest _ => [dest]
  | .addAssignReg dest src | .loadReg dest src | .shiftLeft dest src _ => [dest, src]
  | .addImm dest left _ | .andImm dest left _ => [dest, left]
  | .addReg dest left right | .andReg dest left right => [dest, left, right]
  | .cmpImm left _ | .testImm left _ => [left]
  | .cmpReg left right | .testReg left right => [left, right]
  | .loadOffset dest base offset => [dest, base, offset]
  | .store _ src => [src]
  | .storeReg addr src => [addr, src]
  | .storeOffset base offset value => [base, offset, value]
  | .call _ args out => (if out = .absent then [] else [out]) ++ args.flatMap Argument.registers
  | .goto _ | .gotoCond _ _ | .label _ | .nop | .declare _ | .leave => []

/-- All fields of the statement are filled in with what belongs there. -/
structure IsValid (st : Statement) : Prop where
  names : ∀ n ∈ st.mentions, Name.isValid n = true
  registers : ∀ r ∈ st.registers, r.isValid = true
  condition : ∀ c n, st = .gotoCond c n → c ≠ []

end Statement

/-- The names of the element are valid, and so are its statements. -/
def Element.IsValid : Element → Prop
  | .global name _ => Name.isValid name = true
  | .function f =>
    Name.isValid f.name = true ∧ (∀ p ∈ f.params, Name.isValid p = true) ∧ ∀ st ∈ f.body, st.IsValid

/-- **All elements of the program are valid.** -/
def Program.IsValid (p : Program) : Prop := ∀ e ∈ p, e.IsValid

/-! ### Faults with a property -/

namespace Assembly.Emitter

variable {ε ε' σ α β : Type} {P : ε → Prop}

/-- Whatever `x` fails with has the property `P`. -/
def FailsOnly (x : Emitter ε σ α) (P : ε → Prop) : Prop := ∀ s e, Fails x s e → P e

theorem failsOnly_pure (a : α) : FailsOnly (pure a : Emitter ε σ α) P := nofun

theorem failsOnly_emitAll (es : List Emission) :
    FailsOnly (emitAll es : Emitter ε σ Unit) P := nofun

theorem failsOnly_getState : FailsOnly (getState : Emitter ε σ σ) P := nofun

theorem failsOnly_setState (s : σ) : FailsOnly (setState s : Emitter ε σ Unit) P := nofun

theorem failsOnly_fail {e : ε} (h : P e) : FailsOnly (fail e : Emitter ε σ α) P := by
  intro s e' he
  cases he
  exact h

theorem failsOnly_ofExcept {r : Except ε α} (h : ∀ e, r = .error e → P e) :
    FailsOnly (ofExcept r : Emitter ε σ α) P := fun _ e he => h e he

theorem FailsOnly.bind {x : Emitter ε σ α} {f : α → Emitter ε σ β} (hx : FailsOnly x P)
    (hf : ∀ a, FailsOnly (f a) P) : FailsOnly (x >>= f) P := by
  intro s e h
  rcases fails_bind.1 h with h | ⟨_, u, a, -, h⟩
  · exact hx s e h
  · exact hf a u e h

theorem FailsOnly.emit {es : List Emission} {f : Unit → Emitter ε σ β} (hf : FailsOnly (f ()) P) :
    FailsOnly (emitAll es >>= f) P := (failsOnly_emitAll es).bind fun _ => hf

theorem FailsOnly.trace {c : Trace.Call} {f : Unit → Emitter ε σ β} (hf : FailsOnly (f ()) P) :
    FailsOnly (trace c >>= f) P := fun s e h => hf s e (fails_trace_bind.1 h)

theorem IsTotal.failsOnly {x : Emitter ε σ α} (h : IsTotal x) : FailsOnly x P :=
  fun s e hx => absurd hx (h s e)

theorem FailsOnly.mapError {x : Emitter ε σ α} {g : ε → ε'} {Q : ε' → Prop} (hx : FailsOnly x P)
    (h : ∀ e, P e → Q (g e)) : FailsOnly (x.mapError g) Q := by
  intro s e he
  obtain ⟨e', he', rfl⟩ := fails_mapError.1 he
  exact h e' (hx s e' he')

end Assembly.Emitter

namespace Lowering

/-- An error that does not say that the input is bad. -/
def Error.IsDeeper (e : Error) : Prop := e.code ≠ .badInput

section Statement

variable {α : Type}

theorem isDeeper_literal (e : Literal.Error) : (Error.literal e).IsDeeper := by
  cases e <;> rintro ⟨⟩

theorem literal_isDeeper {r : Except Literal.Error α} :
    ∀ e, r.mapError Error.literal = .error e → e.IsDeeper := by
  intro e h
  cases r with
  | ok a => cases h
  | error e' =>
    cases h
    exact isDeeper_literal e'

theorem machineReg_isDeeper {r : Register} (h : r.isValid = true) :
    ∀ e, machineReg r = .error e → e.IsDeeper := by
  intro e he
  cases (machineReg_eq_ok.2 ⟨h, rfl⟩).symm.trans he

theorem literalValue_bind_isDeeper {l : Literal} {f : Int → Except Error α}
    (hf : ∀ v e, f v = .error e → e.IsDeeper) :
    ∀ e, (literalValue l >>= f) = .error e → e.IsDeeper := by
  intro e h
  cases hv : literalValue l with
  | error e' =>
    rw [hv] at h
    cases h
    exact literal_isDeeper e hv
  | ok v =>
    rw [hv] at h
    exact hf v e h

theorem smallImm_isDeeper {l : Literal} : ∀ e, smallImm l = .error e → e.IsDeeper := by
  refine literalValue_bind_isDeeper fun v e h => ?_
  split at h <;> cases h
  rintro ⟨⟩

theorem shiftAmount_isDeeper {l : Literal} : ∀ e, shiftAmount l = .error e → e.IsDeeper := by
  refine literalValue_bind_isDeeper fun v e h => ?_
  split at h <;> cases h
  rintro ⟨⟩

theorem resolve_isDeeper {sc : Scope} {name : Text} :
    ∀ e, sc.resolve name = .error e → e.IsDeeper := by
  intro e h
  unfold Scope.resolve at h
  split at h
  · cases h
  · split at h
    · split at h <;> cases h
      rintro ⟨⟩
    · cases h
      rintro ⟨⟩

theorem checkCall_isDeeper {sc : Scope} {callee : Text} {args : List Argument} {out : Register}
    (h : out ≠ .absent → out.isValid = true) :
    ∀ e, checkCall sc callee args out = .error e → e.IsDeeper := by
  intro e he
  unfold checkCall at he
  cases ha : sc.symbols.arity? callee with
  | none =>
    rw [ha] at he
    cases he
    rintro ⟨⟩
  | some arity =>
    simp only [ha, throw, throwThe, MonadExceptOf.throw, bind, Except.bind, pure, Except.pure] at he
    split at he
    · cases he
      rintro ⟨⟩
    split at he
    · cases he
      rintro ⟨⟩
    split at he
    · cases he
      rintro ⟨⟩
    split at he
    · cases he
    · rename_i hout
      rw [machineReg_eq_ok.2 ⟨h hout, rfl⟩] at he
      cases he

theorem FailsOnly.check {r : Except Error α} {f : α → Lower Unit}
    (hr : ∀ e, r = .error e → e.IsDeeper) (hf : ∀ a, FailsOnly (f a) Error.IsDeeper) :
    FailsOnly (check r >>= f) Error.IsDeeper := (failsOnly_ofExcept hr).bind hf

theorem failsOnly_setConstant (dest : Reg) (v : Int) :
    FailsOnly (setConstant dest v) Error.IsDeeper := by
  unfold setConstant
  split
  · exact failsOnly_emitAll _
  · exact FailsOnly.check literal_isDeeper fun _ => (isTotal_embed _ _).failsOnly

/-- A variable is looked for, and what follows does not fail. -/
theorem failsOnly_resolve {sc : Scope} {name : Text} {f : Variable → Lower Unit}
    (hglobal : FailsOnly (f .global) Error.IsDeeper)
    (hslot : ∀ i, FailsOnly (f (.slot i)) Error.IsDeeper) :
    FailsOnly (check (sc.resolve name) >>= f) Error.IsDeeper := by
  refine FailsOnly.check resolve_isDeeper fun v => ?_
  cases v with
  | global => exact hglobal
  | slot i => exact hslot i

theorem failsOnly_loadArgument {sc : Scope} {a : Argument}
    (h : ∀ r ∈ a.registers, r.isValid = true) : FailsOnly (loadArgument sc a) Error.IsDeeper := by
  cases a with
  | identifier name =>
    refine failsOnly_resolve ((isTotal_embed _ _).failsOnly.bind fun _ => failsOnly_emitAll _)
      fun i => ?_
    refine .emit ?_
    dsimp only
    split
    · exact .emit (.emit (.emit (failsOnly_emitAll _)))
    · exact .emit (failsOnly_emitAll _)
  | literal l => exact FailsOnly.check literal_isDeeper fun _ => failsOnly_setConstant _ _
  | register r =>
    refine FailsOnly.check (machineReg_isDeeper (h r (List.mem_singleton_self r))) fun m => ?_
    split
    · exact failsOnly_emitAll _
    · exact failsOnly_fail (by rintro ⟨⟩)

theorem failsOnly_passArguments {sc : Scope} {k : Nat} {args : List Argument}
    (h : ∀ r ∈ args.flatMap Argument.registers, r.isValid = true) :
    FailsOnly (passArguments sc k args) Error.IsDeeper := by
  induction args generalizing k with
  | nil => exact failsOnly_pure ()
  | cons a args ih =>
    rw [List.flatMap_cons, List.forall_mem_append] at h
    exact (failsOnly_loadArgument h.1).bind fun _ => .emit (ih h.2)

theorem failsOnly_lowerCall {sc : Scope} {callee : Text} {args : List Argument} {out : Register}
    (hout : out ≠ .absent → out.isValid = true)
    (hargs : ∀ r ∈ args.flatMap Argument.registers, r.isValid = true) :
    FailsOnly (lowerCall sc callee args out) Error.IsDeeper := by
  refine FailsOnly.check (checkCall_isDeeper hout) fun kept => .emit (.emit ?_)
  have hrest : FailsOnly (do
      passArguments sc 0 args
      comment "Jumping"
      let resume ← enter callee
      comment "Restoring registers"
      label resume
      restoreRegisters sc.frame.length kept) Error.IsDeeper :=
    (failsOnly_passArguments hargs).bind fun _ => (isTotal_callEnd callee _ kept).failsOnly
  refine (isTotal_saveRegisters _).failsOnly.bind fun _ => ?_
  dsimp only
  split
  · exact .emit hrest
  · exact hrest

/-- **Lowering a valid statement** does not find bad input. -/
theorem lowerStatement_failsOnly {sc : Scope} {st : Statement} (h : st.IsValid) :
    FailsOnly (lowerStatement sc st) Error.IsDeeper := by
  have hreg {r : Register} (hr : r ∈ st.registers) : ∀ e, machineReg r = .error e → e.IsDeeper :=
    machineReg_isDeeper (h.registers r hr)
  cases st with
  | addAssignImm dest value | cmpImm left value =>
    exact FailsOnly.check (hreg (.head _)) fun _ =>
      FailsOnly.check smallImm_isDeeper fun _ => .emit (failsOnly_emitAll _)
  | addAssignReg dest src | cmpReg left right | loadReg dest src | storeReg addr src =>
    exact FailsOnly.check (hreg (.head _)) fun _ =>
      FailsOnly.check (hreg (.tail _ (.head _))) fun _ => .emit (failsOnly_emitAll _)
  | andImm dest left value =>
    exact FailsOnly.check (hreg (.head _)) fun _ =>
      FailsOnly.check (hreg (.tail _ (.head _))) fun _ =>
        FailsOnly.check smallImm_isDeeper fun _ => .emit (failsOnly_emitAll _)
  | andReg dest left right | loadOffset dest base offset | storeOffset base offset value =>
    exact FailsOnly.check (hreg (.head _)) fun _ =>
      FailsOnly.check (hreg (.tail _ (.head _))) fun _ =>
        FailsOnly.check (hreg (.tail _ (.tail _ (.head _)))) fun _ => .emit (failsOnly_emitAll _)
  | shiftLeft dest src amount =>
    exact FailsOnly.check (hreg (.head _)) fun _ =>
      FailsOnly.check (hreg (.tail _ (.head _))) fun _ =>
        FailsOnly.check shiftAmount_isDeeper fun _ => .emit (failsOnly_emitAll _)
  | set dest value =>
    exact FailsOnly.check (hreg (.head _)) fun _ =>
      FailsOnly.check literal_isDeeper fun _ => .emit (failsOnly_setConstant _ _)
  | load dest name =>
    exact FailsOnly.check (hreg (.head _)) fun _ => failsOnly_resolve
      (.emit ((isTotal_embed _ _).failsOnly.bind fun _ => failsOnly_emitAll _))
      fun _ => .emit (failsOnly_emitAll _)
  | loadAddr dest name =>
    exact FailsOnly.check (hreg (.head _)) fun _ => failsOnly_resolve
      (.emit (isTotal_embed _ _).failsOnly) fun _ => .emit (failsOnly_emitAll _)
  | store name src =>
    exact FailsOnly.check (hreg (.head _)) fun _ => failsOnly_resolve
      (.emit (isTotal_storeGlobal _ _).failsOnly) fun _ => .emit (failsOnly_emitAll _)
  | gotoCond cond name =>
    have hcond : cond.isEmpty = false := by
      simpa using h.condition cond name rfl
    rw [lowerStatement, hcond]
    exact failsOnly_emitAll _
  | call callee args out =>
    have hall := List.forall_mem_append.1 h.registers
    refine failsOnly_lowerCall (fun hout => hall.1 out ?_) hall.2
    rw [if_neg hout]
    exact .head _
  | label name => exact .emit (.emit (failsOnly_emitAll _))
  | goto name => exact failsOnly_emitAll _
  | nop => exact failsOnly_emitAll _
  | declare name => exact failsOnly_pure ()
  | addImm dest left value | addReg dest left right | testImm left value | testReg left right
  | leave => exact failsOnly_fail (by rintro ⟨⟩)

end Statement

/-! ### Programs -/

theorem dataWord_isDeeper {l : Literal} : ∀ e, dataWord l = .error e → e.IsDeeper :=
  literal_isDeeper

theorem arrayWords_isDeeper {ls : List Literal} {e : Error} (h : (arrayWords ls).2 = some e) :
    e.IsDeeper := by
  induction ls with
  | nil => cases h
  | cons l ls ih =>
    rw [arrayWords] at h
    cases hd : dataWord l with
    | error e' =>
      rw [hd] at h
      cases h
      exact dataWord_isDeeper e hd
    | ok v =>
      rw [hd] at h
      exact ih h

theorem stringWords_isDeeper {name : Text} {rs : List Rune} {e : Error}
    (h : (stringWords name rs).2 = some e) : e.IsDeeper := by
  induction rs with
  | nil => cases h
  | cons r rs ih =>
    rw [stringWords] at h
    split at h
    · exact ih h
    · cases h
      rintro ⟨⟩

theorem dataWords_isDeeper {name : Text} {data : Data} {e : Error}
    (h : (dataWords name data).2 = some e) : e.IsDeeper := by
  cases data with
  | array values => exact arrayWords_isDeeper h
  | string text => exact stringWords_isDeeper h
  | literal value =>
    rw [dataWords] at h
    cases hd : dataWord value with
    | error e' =>
      rw [hd] at h
      cases h
      exact dataWord_isDeeper e hd
    | ok v =>
      rw [hd] at h
      cases h
  | block size =>
    rw [dataWords] at h
    cases hd : dataWord size with
    | error e' =>
      rw [hd] at h
      cases h
      exact dataWord_isDeeper e hd
    | ok v =>
      simp only [hd] at h
      split at h <;> cases h
      rintro ⟨⟩

/-- The first pass does not find bad input in any program. -/
theorem collect_failsOnly (p : Program) :
    FailsOnly (collect p) fun f : Fault => f.code ≠ .badInput := by
  induction p with
  | nil => exact failsOnly_pure ()
  | cons x p ih =>
    refine FailsOnly.bind ?_ fun _ => ih
    cases x with
    | function f =>
      refine failsOnly_getState.bind fun s => ?_
      split
      · exact failsOnly_fail (by rintro ⟨⟩)
      · exact failsOnly_setState _
    | global name data =>
      refine failsOnly_getState.bind fun s => ?_
      split
      · exact failsOnly_fail (by rintro ⟨⟩)
      · refine (failsOnly_setState _).bind fun _ => .emit (.emit ?_)
        split
        · exact failsOnly_pure ()
        · rename_i e he
          exact failsOnly_fail (dataWords_isDeeper he)

theorem lowerBody_failsOnly {sc : Scope} {k : Nat} {a : Bool} {sts : List Statement}
    (h : ∀ st ∈ sts, st.IsValid) :
    FailsOnly (lowerBody sc k a sts) fun f => f.code ≠ .badInput := by
  induction sts generalizing k a with
  | nil => exact failsOnly_pure ()
  | cons st sts ih =>
    obtain ⟨hst, hsts⟩ := List.forall_mem_cons.1 h
    have hrest : FailsOnly (do
        (lowerStatement sc st).mapError fun e =>
          e.fault.within { element := sc.function, statement := k }
        lowerBody sc (k + 1) (!st.locals.isEmpty) sts) fun f => f.code ≠ .badInput := by
      refine FailsOnly.bind ?_ fun _ => ih hsts
      exact (lowerStatement_failsOnly hst).mapError fun _ he => he
    cases a with
    | true => exact .trace hrest
    | false => exact .emit (.trace hrest)

theorem lowerFunction_failsOnly {s : Symbols} {f : Function} (h : ∀ st ∈ f.body, st.IsValid) :
    FailsOnly (lowerFunction s f) fun f => f.code ≠ .badInput :=
  .trace (.emit ((lowerBody_failsOnly h).bind fun _ => .emit (.emit (failsOnly_emitAll _))))

end Lowering

theorem Program.IsValid.of_mem_functions {p : Program} (h : p.IsValid) {f : Function}
    (hf : f ∈ p.functions) : ∀ st ∈ f.body, st.IsValid := by
  obtain ⟨x, hx, hfx⟩ := List.mem_filterMap.1 hf
  cases x with
  | global name data => cases hfx
  | function g =>
    obtain rfl := Option.some.inj hfx
    exact (h _ hx).2.2

/-- **No valid program is bad input**, whatever the options are. -/
theorem Program.IsValid.compile_code_ne {p : Program} (h : p.IsValid) {o : Options} {f : Fault}
    (hf : (compile p o).fault = some f) : f.code ≠ .badInput := by
  rw [compile_fault] at hf
  cases hc : (collect p {}).result with
  | error e =>
    rw [hc] at hf
    obtain rfl := Option.some.inj hf
    exact collect_failsOnly p {} e hc
  | ok u =>
    rw [hc] at hf
    obtain ⟨earlier, g, later, m, hfs, hg, -⟩ := generate_fails hf
    have hvalid := h.of_mem_functions (hfs ▸ List.mem_append_right _ List.mem_cons_self)
    exact lowerFunction_failsOnly hvalid m f hg

end StumpGen
