import StumpGen.Proofs.Lowering

/-!
# What a failed statement leaves behind

Emissions are not taken back, so a statement that fails in the middle would leave half of its code
in the listing.  Checks come first, and only two kinds of statements can fail behind an emission: a
constant that is too wide for a word fails behind its remark, and a call behind the code of the
arguments in front of the one that cannot be passed.

* `Emitter.Breaks` : a computation fails, with what it emits and the state it leaves;
  `Emitter.breaks_bind` takes a composed computation apart.
* `Emitter.IsAtomic` and `Emitter.IsTotal` : a computation that leaves nothing behind if it fails,
  and one that never fails.  A check in front of an atomic computation is atomic
  (`IsAtomic.check`), an emission only in front of a total one.
* `isAtomic_lowerStatement`, `breaks_set`, `breaks_lowerCall` : all statements.

**Main theorem** (`breaks_lowerStatement`): what a failed statement leaves behind in a listing.
-/

namespace StumpGen

open Assembly

/-! ### Code generation that fails -/

namespace Assembly.Emitter

variable {ε σ α β : Type}

/-- From the state `s` the computation `x` emits `es`, leaves the state `t` and fails with `e`. -/
structure Breaks (x : Emitter ε σ α) (s : σ) (es : List Emission) (t : σ) (e : ε) : Prop where
  /-- What is emitted. -/
  emissions : (x s).emissions = es
  /-- The state that is left. -/
  state : (x s).state = t
  /-- Why there is no result. -/
  fails : Fails x s e

variable {s t : σ} {es : List Emission} {e : ε}

theorem breaks_bind {x : Emitter ε σ α} {f : α → Emitter ε σ β} :
    Breaks (x >>= f) s es t e ↔
      Breaks x s es t e ∨
        ∃ es₁ u a es₂, Runs x s es₁ u a ∧ Breaks (f a) u es₂ t e ∧ es = es₁ ++ es₂ := by
  constructor
  · rintro ⟨rfl, rfl, h⟩
    rcases fails_bind.1 h with hx | ⟨_, _, a, ⟨rfl, rfl, hx⟩, hf⟩
    · rw [bind_of_error hx]
      exact .inl ⟨rfl, rfl, hx⟩
    · rw [bind_of_ok hx]
      exact .inr ⟨_, _, a, _, ⟨rfl, rfl, hx⟩, ⟨rfl, rfl, hf⟩, rfl⟩
  · rintro (⟨rfl, rfl, hx⟩ | ⟨_, _, a, _, ⟨rfl, rfl, hx⟩, ⟨rfl, rfl, hf⟩, rfl⟩)
    · have hb := bind_of_error hx f
      exact ⟨by rw [hb], by rw [hb], fails_bind.2 (.inl hx)⟩
    · have hb := bind_of_ok hx f
      exact ⟨by rw [hb], by rw [hb], fails_bind.2 (.inr ⟨_, _, a, ⟨rfl, rfl, hx⟩, hf⟩)⟩

/-- Whenever the computation fails, it has emitted nothing and left the state alone. -/
def IsAtomic (x : Emitter ε σ α) : Prop := ∀ s es t e, Breaks x s es t e → es = [] ∧ t = s

/-- The computation never fails. -/
def IsTotal (x : Emitter ε σ α) : Prop := ∀ s e, ¬ Fails x s e

theorem IsTotal.isAtomic {x : Emitter ε σ α} (h : IsTotal x) : IsAtomic x :=
  fun s _ _ e hx => absurd hx.fails (h s e)

theorem isTotal_pure (a : α) : IsTotal (pure a : Emitter ε σ α) := by rintro s e ⟨⟩

theorem isTotal_emitAll (fs : List Emission) : IsTotal (emitAll fs : Emitter ε σ Unit) := by
  rintro s e ⟨⟩

theorem IsTotal.bind {x : Emitter ε σ α} {f : α → Emitter ε σ β} (hx : IsTotal x)
    (hf : ∀ a, IsTotal (f a)) : IsTotal (x >>= f) := by
  intro s e h
  rcases fails_bind.1 h with h | ⟨_, u, a, -, h⟩
  · exact hx s e h
  · exact hf a u e h

/-- Emitting in front of a total computation. -/
theorem IsTotal.emit {fs : List Emission} {f : Unit → Emitter ε σ β} (hf : IsTotal (f ())) :
    IsTotal (emitAll fs >>= f) := (isTotal_emitAll fs).bind fun _ => hf

/-- Behind a total computation. -/
theorem IsTotal.breaks_bind {x : Emitter ε σ α} {f : α → Emitter ε σ β} (hx : IsTotal x) :
    Breaks (x >>= f) s es t e ↔
      ∃ es₁ u a es₂, Runs x s es₁ u a ∧ Breaks (f a) u es₂ t e ∧ es = es₁ ++ es₂ :=
  Emitter.breaks_bind.trans (or_iff_right fun h => hx s e h.fails)

/-- In front of a total computation. -/
theorem IsTotal.breaks_bind_left {x : Emitter ε σ α} {f : α → Emitter ε σ β}
    (hf : ∀ a, IsTotal (f a)) (h : Breaks (x >>= f) s es t e) : Breaks x s es t e := by
  rcases Emitter.breaks_bind.1 h with hx | ⟨_, u, a, es₂, -, hb, -⟩
  · exact hx
  · exact absurd hb.fails (hf a u e)

theorem breaks_emitAll_bind {fs : List Emission} {f : Unit → Emitter ε σ β} :
    Breaks (emitAll fs >>= f) s es t e ↔ ∃ es', Breaks (f ()) s es' t e ∧ es = fs ++ es' := by
  rw [(isTotal_emitAll fs).breaks_bind]
  constructor
  · rintro ⟨_, _, _, es', hr, hb, rfl⟩
    obtain ⟨rfl, rfl⟩ := runs_emitAll.1 hr
    exact ⟨es', hb, rfl⟩
  · rintro ⟨es', hb, rfl⟩
    exact ⟨fs, s, (), es', runs_emitAll.2 ⟨rfl, rfl⟩, hb, rfl⟩

theorem isAtomic_fail (e : ε) : IsAtomic (fail e : Emitter ε σ α) := by
  intro s es t e' h
  obtain ⟨rfl, rfl, -⟩ := h
  exact ⟨rfl, rfl⟩

theorem isAtomic_ofExcept (r : Except ε α) : IsAtomic (ofExcept r : Emitter ε σ α) := by
  intro s es t e h
  obtain ⟨rfl, rfl, -⟩ := h
  exact ⟨rfl, rfl⟩

/-- **A check in front** of an atomic computation: neither emits before it fails. -/
theorem IsAtomic.check {r : Except ε α} {f : α → Emitter ε σ β} (hf : ∀ a, IsAtomic (f a)) :
    IsAtomic (ofExcept r >>= f) := by
  intro s es t e h
  rcases breaks_bind.1 h with hr | ⟨_, u, a, es₂, hr, hb, rfl⟩
  · exact isAtomic_ofExcept r s es t e hr
  · obtain ⟨-, rfl, rfl⟩ := runs_ofExcept.1 hr
    exact hf a u es₂ t e hb

end Assembly.Emitter

namespace Lowering

open Emitter

section Statement

variable {sc : Scope} {n t : Nat} {es : List Emission} {e : Error}

/-! ### Pieces of code -/

theorem isTotal_fresh : IsTotal fresh := by rintro n e ⟨⟩

theorem isTotal_embed (dest : Reg) (word : Instruction) : IsTotal (embed dest word) :=
  isTotal_fresh.bind fun _ => .emit <| isTotal_fresh.bind fun _ => .emit <| .emit <| .emit <|
    isTotal_emitAll _

theorem isTotal_storeGlobal (name : Text) (src : Reg) : IsTotal (storeGlobal name src) :=
  isTotal_fresh.bind fun _ => .emit <| isTotal_fresh.bind fun _ => .emit <| .emit <|
    isTotal_fresh.bind fun _ => .emit <| .emit <| .emit <| isTotal_emitAll _

theorem isAtomic_setConstant (dest : Reg) (v : Int) : IsAtomic (setConstant dest v) := by
  unfold setConstant
  split
  · exact (isTotal_emitAll _).isAtomic
  · exact .check fun w => (isTotal_embed dest _).isAtomic

theorem isAtomic_loadVariable (dest : Reg) (name : Text) :
    IsAtomic (loadVariable sc dest name) := by
  refine .check fun x => IsTotal.isAtomic ?_
  cases x with
  | global => exact .emit <| (isTotal_embed dest _).bind fun _ => isTotal_emitAll _
  | slot i => exact .emit <| isTotal_emitAll _

theorem isAtomic_loadAddress (dest : Reg) (name : Text) :
    IsAtomic (loadAddress sc dest name) := by
  refine .check fun x => IsTotal.isAtomic ?_
  cases x with
  | global => exact .emit <| isTotal_embed dest _
  | slot i => exact .emit <| isTotal_emitAll _

theorem isAtomic_storeVariable (name : Text) (src : Reg) :
    IsAtomic (storeVariable sc name src) := by
  refine .check fun x => IsTotal.isAtomic ?_
  cases x with
  | global => exact .emit <| isTotal_storeGlobal name src
  | slot i => exact .emit <| isTotal_emitAll _

theorem isAtomic_loadArgument (a : Argument) : IsAtomic (loadArgument sc a) := by
  cases a with
  | identifier name =>
    refine .check fun x => IsTotal.isAtomic ?_
    cases x with
    | global => exact (isTotal_embed _ _).bind fun _ => isTotal_emitAll _
    | slot i =>
      refine .emit ?_
      split
      · exact .emit <| .emit <| .emit <| isTotal_emitAll _
      · exact .emit <| isTotal_emitAll _
  | literal l => exact .check fun v => isAtomic_setConstant _ v
  | register r =>
    refine .check fun m => ?_
    split
    · exact (isTotal_emitAll _).isAtomic
    · exact isAtomic_fail _

/-! ### All statements -/

/-- **Statements but constants and calls are atomic.** -/
theorem isAtomic_lowerStatement {st : Statement} (hset : ∀ dest value, st ≠ .set dest value)
    (hcall : ∀ callee args out, st ≠ .call callee args out) : IsAtomic (lowerStatement sc st) := by
  -- the last emissions of a statement cannot fail, and so checks are all that is in front of them
  have one (i : Instruction) : IsAtomic (code i : Lower Unit) := (isTotal_emitAll _).isAtomic
  have two (c : Text) (es : List Emission) :
      IsAtomic (comment c >>= fun _ => emitAll es : Lower Unit) :=
    (IsTotal.emit (isTotal_emitAll es)).isAtomic
  cases st with
  | addAssignImm dest value => exact .check fun _ => .check fun _ => two _ _
  | addAssignReg dest src => exact .check fun _ => .check fun _ => two _ _
  | addImm _ _ _ | addReg _ _ _ | testImm _ _ | testReg _ _ | leave => exact isAtomic_fail _
  | andImm dest left value => exact .check fun _ => .check fun _ => .check fun _ => two _ _
  | andReg dest left right => exact .check fun _ => .check fun _ => .check fun _ => two _ _
  | cmpImm left value => exact .check fun _ => .check fun _ => two _ _
  | cmpReg left right => exact .check fun _ => .check fun _ => two _ _
  | goto target => exact one _
  | gotoCond cond target =>
    rw [lowerStatement]
    split
    · exact isAtomic_fail _
    · exact one _
  | label name =>
    have hmark : IsTotal (lowerStatement sc (.label name)) := .emit <| .emit <| isTotal_emitAll _
    exact hmark.isAtomic
  | load dest name => exact .check fun d => isAtomic_loadVariable d name
  | loadAddr dest name => exact .check fun d => isAtomic_loadAddress d name
  | loadReg dest src => exact .check fun _ => .check fun _ => two _ _
  | loadOffset dest base offset => exact .check fun _ => .check fun _ => .check fun _ => two _ _
  | store name src => exact .check fun s => isAtomic_storeVariable name s
  | storeReg addr src => exact .check fun _ => .check fun _ => two _ _
  | storeOffset base offset value => exact .check fun _ => .check fun _ => .check fun _ => two _ _
  | set dest value => exact absurd rfl (hset dest value)
  | shiftLeft dest src amount => exact .check fun _ => .check fun _ => .check fun _ => two _ _
  | call callee args out => exact absurd rfl (hcall callee args out)
  | nop => exact one _
  | declare name => exact (isTotal_pure ()).isAtomic

theorem breaks_check_bind {α : Type} {r : Except Error α} {f : α → Lower Unit} :
    Breaks (check r >>= f) n es t e ↔
      (r = .error e ∧ es = [] ∧ t = n) ∨ ∃ a, r = .ok a ∧ Breaks (f a) n es t e := by
  rw [breaks_bind]
  constructor
  · rintro (hr | ⟨_, _, a, es₂, hr, hb, rfl⟩)
    · obtain ⟨rfl, rfl, he⟩ := hr
      exact .inl ⟨he, rfl, rfl⟩
    · obtain ⟨ha, rfl, rfl⟩ := runs_check.1 hr
      exact .inr ⟨a, ha, hb⟩
  · rintro (⟨rfl, rfl, rfl⟩ | ⟨a, ha, hb⟩)
    · exact .inl ⟨rfl, rfl, rfl⟩
    · exact .inr ⟨[], n, a, es, runs_check.2 ⟨ha, rfl, rfl⟩, hb, rfl⟩

/-- **Constants** fail behind their remark, if they are too wide for a word. -/
theorem breaks_set {dest : Register} {value : Literal}
    (h : Breaks (lowerStatement sc (.set dest value)) n es t e) :
    t = n ∧ (es = [] ∨ ∃ v, value.value = .ok v ∧ ¬ (Literal.minWord ≤ v ∧ v ≤ Literal.maxWord) ∧
      es = [.comment ("Setting " ++ dest.target.name ++ " to " ++ Text.ofInt v)]) := by
  rw [lowerStatement, breaks_check_bind] at h
  obtain ⟨-, rfl, rfl⟩ | ⟨d, hd, h⟩ := h
  · exact ⟨rfl, .inl rfl⟩
  obtain ⟨-, rfl⟩ := machineReg_eq_ok.1 hd
  rw [breaks_check_bind] at h
  obtain ⟨-, rfl, rfl⟩ | ⟨v, hv, h⟩ := h
  · exact ⟨rfl, .inl rfl⟩
  obtain ⟨es', hb, rfl⟩ := breaks_emitAll_bind.1 h
  obtain ⟨rfl, rfl⟩ := isAtomic_setConstant _ _ _ _ _ _ hb
  refine ⟨rfl, .inr ⟨v, literalValue_eq_ok.1 hv, fun hw => ?_, rfl⟩⟩
  -- a constant that fits a word can be set
  have hrun : ∃ fs u, Runs (setConstant dest.target v) t fs u () := by
    by_cases hs : minImm ≤ v ∧ v ≤ maxImm
    · exact ⟨_, _, runs_setConstant.2 (.inl ⟨hs, rfl, rfl⟩)⟩
    · exact ⟨_, _, runs_setConstant.2 (.inr ⟨hs, hw, rfl, rfl⟩)⟩
  obtain ⟨fs, u, hrun⟩ := hrun
  exact hrun.not_fails e hb.fails

/-! ### Calls -/

/-- **Arguments** are passed one by one up to the one that cannot be passed. -/
theorem breaks_passArguments {k : Nat} {args : List Argument}
    (h : Breaks (passArguments sc k args) n es t e) :
    ∃ before a after, args = before ++ a :: after ∧ Passed sc k before n es t ∧
      Fails (loadArgument sc a) t e := by
  induction args generalizing k n es with
  | nil => exact absurd h.fails (isTotal_pure () n e)
  | cons a as ih =>
    rcases breaks_bind.1 h with ha | ⟨es₁, u, _, es₂, ha, hs, rfl⟩
    · obtain ⟨rfl, rfl⟩ := isAtomic_loadArgument a n es t e ha
      exact ⟨[], a, as, rfl, .nil, ha.fails⟩
    · -- the argument is passed: it is loaded and stored, and the fault is in a later one
      obtain ⟨es₃, hr, rfl⟩ := breaks_emitAll_bind.1 hs
      obtain ⟨before, b, after, rfl, hp, hb⟩ := ih hr
      exact ⟨a :: before, b, after, rfl, .cons (runs_loadArgument.1 ha) hp, hb⟩

theorem isTotal_saveRegisters (k : Nat) : IsTotal (saveRegisters k) :=
  .emit <| .emit <| isTotal_emitAll _

/-- What follows the arguments of a call cannot fail. -/
theorem isTotal_callEnd (callee : Text) (k : Nat) (kept : Option Reg) :
    IsTotal (do
      comment "Jumping"
      let resume ← enter callee
      comment "Restoring registers"
      label resume
      restoreRegisters k kept) := by
  have henter : IsTotal (enter callee) :=
    isTotal_fresh.bind fun _ => isTotal_fresh.bind fun _ => isTotal_fresh.bind fun _ =>
      .emit <| .emit <| .emit <| .emit <| .emit <| isTotal_pure _
  exact .emit <| henter.bind fun _ => .emit <| .emit <| .emit <| .emit <| isTotal_emitAll _

/-- **Calls** fail in front of all emissions or at an argument. -/
theorem breaks_lowerCall {callee : Text} {args : List Argument} {out : Register}
    (h : Breaks (lowerCall sc callee args out) n es t e) :
    ¬ Callable sc callee args out ∧ es = [] ∧ t = n ∨
      Callable sc callee args out ∧ ∃ before a after fs, args = before ++ a :: after ∧
        Passed sc 0 before n fs t ∧ Fails (loadArgument sc a) t e ∧
        es = [.comment ("Calling function " ++ callee), .comment "Saving registers"]
          ++ saving sc.frame.length ++ argumentsRemark args ++ fs := by
  rw [lowerCall, breaks_check_bind] at h
  obtain ⟨hc, rfl, rfl⟩ | ⟨kept, hc, h⟩ := h
  · refine .inl ⟨fun hcall => ?_, rfl, rfl⟩
    cases (checkCall_eq_ok.2 ⟨hcall, rfl⟩).symm.trans hc
  refine .inr ⟨(checkCall_eq_ok.1 hc).1, ?_⟩
  obtain ⟨_, h₁, rfl⟩ := breaks_emitAll_bind.1 h
  obtain ⟨_, h₂, rfl⟩ := breaks_emitAll_bind.1 h₁
  obtain ⟨_, m, _, es₃, hs, h₃, rfl⟩ := (isTotal_saveRegisters _).breaks_bind.1 h₂
  obtain ⟨rfl, rfl⟩ := runs_saveRegisters.1 hs
  have hrest : ∃ fs, Breaks (passArguments sc 0 args) m fs t e ∧
      es₃ = argumentsRemark args ++ fs := by
    cases hargs : args.isEmpty with
    | true =>
      simp only [hargs, Bool.not_true, Bool.false_eq_true, if_false] at h₃
      exact ⟨es₃, IsTotal.breaks_bind_left (fun _ => isTotal_callEnd _ _ _) h₃,
        by simp [argumentsRemark, hargs]⟩
    | false =>
      simp only [hargs, Bool.not_false, if_true] at h₃
      obtain ⟨fs, h₄, rfl⟩ := breaks_emitAll_bind.1 h₃
      exact ⟨fs, IsTotal.breaks_bind_left (fun _ => isTotal_callEnd _ _ _) h₄,
        by simp [argumentsRemark, hargs]⟩
  obtain ⟨fs, hp, rfl⟩ := hrest
  obtain ⟨before, a, after, hargs, hpassed, ha⟩ := breaks_passArguments hp
  exact ⟨before, a, after, fs, hargs, hpassed, ha, by simp⟩

/-! ### Listings behind failed statements -/

theorem length_wordsFrom_saving (p : Option Text) (k : Nat) :
    (wordsFrom p (saving k)).length = 7 := rfl

/-- The words of a call that failed at an argument: those that save the registers, the first of
which takes the label that waits, and those of the arguments. -/
theorem image_failedCall (l : Listing) {k : Nat} {args before : List Argument} {fs : List Emission}
    (hp : Passed sc 0 before n fs t) (c₁ c₂ : Text) :
    let l' := l.emitAll ([.comment c₁, .comment c₂] ++ saving k ++ argumentsRemark args ++ fs)
    l'.image = l.image ++ wordsFrom l.pending (saving k) ++ wordsFrom none fs ∧
      l'.pending = none := by
  have hwords : wordsFrom l.pending ([.comment c₁, .comment c₂] ++ saving k
      ++ argumentsRemark args) = wordsFrom l.pending (saving k) := by
    unfold argumentsRemark
    split <;> rfl
  have hwait : waiting l.pending ([.comment c₁, .comment c₂] ++ saving k
      ++ argumentsRemark args) = none := by
    unfold argumentsRemark
    split <;> rfl
  constructor
  · rw [Listing.image_emitAll, wordsFrom_append, hwords, hwait, List.append_assoc]
  · rw [(Listing.lines_emitAll l _).2, waiting_append, hwait, waiting_of_passed hp]

/-- **What a failed statement leaves behind.**  If it is no call, the counter of labels, the words
and the waiting label stay, and all that a constant may add is a remark.  A call that is refused
adds nothing.  Otherwise there is an argument that cannot be passed; the call has saved the
registers and passed the arguments in front of it, and nothing else. -/
theorem breaks_lowerStatement {st : Statement} (h : Breaks (lowerStatement sc st) n es t e)
    (l : Listing) :
    ((∀ callee args out, st ≠ .call callee args out) →
      t = n ∧ (l.emitAll es).words = l.words ∧ (l.emitAll es).pending = l.pending ∧
        (l.emitAll es = l ∨ ∃ dest value remark, st = .set dest value ∧
          l.emitAll es = { l with lines := l.lines.push (.comment remark) })) ∧
    (∀ callee args out, st = .call callee args out →
      (¬ Callable sc callee args out → es = [] ∧ t = n) ∧
      (Callable sc callee args out → ∃ before a after fs, args = before ++ a :: after ∧
        Passed sc 0 before n fs t ∧ Fails (loadArgument sc a) t e ∧
        (l.emitAll es).image =
          l.image ++ wordsFrom l.pending (saving sc.frame.length) ++ wordsFrom none fs ∧
        (l.emitAll es).words = l.words + 7 + (wordsFrom none fs).length ∧
        (l.emitAll es).pending = none)) := by
  constructor
  · intro hcall
    by_cases hset : ∃ dest value, st = .set dest value
    · obtain ⟨dest, value, rfl⟩ := hset
      obtain ⟨rfl, rfl | ⟨v, -, -, rfl⟩⟩ := breaks_set h
      · exact ⟨rfl, rfl, rfl, .inl rfl⟩
      · refine ⟨rfl, ?_, rfl, .inr ⟨dest, value, _, rfl, rfl⟩⟩
        rw [Listing.words_eq_length_image, Listing.words_eq_length_image, Listing.image_emitAll]
        simp
    · have hatomic : IsAtomic (lowerStatement sc st) :=
        isAtomic_lowerStatement (fun dest value hst => hset ⟨dest, value, hst⟩) hcall
      obtain ⟨rfl, rfl⟩ := hatomic n es t e h
      exact ⟨rfl, rfl, rfl, .inl rfl⟩
  · rintro callee args out rfl
    obtain ⟨hc, rfl, rfl⟩ | ⟨hc, before, a, after, fs, hargs, hp, ha, rfl⟩ := breaks_lowerCall h
    · exact ⟨fun _ => ⟨rfl, rfl⟩, fun hcall => absurd hcall hc⟩
    · refine ⟨fun hcall => absurd hc hcall, fun _ => ⟨before, a, after, fs, hargs, hp, ha, ?_⟩⟩
      obtain ⟨himage, hpending⟩ := image_failedCall l hp ("Calling function " ++ callee)
        "Saving registers"
      refine ⟨himage, ?_, hpending⟩
      rw [Listing.words_eq_length_image, Listing.words_eq_length_image, himage,
        List.length_append, List.length_append, length_wordsFrom_saving]

end Statement

/-- A scope with a global, a local and a function of three parameters. -/
def threeScope : Scope where
  symbols := { globals := ["g"], functions := [("f", 3)] }
  function := "main"
  frame := ["v"]

/-- A call of the function whose last argument is too wide for a word. -/
def wideCall : Statement :=
  .call "f" [.identifier "g", .register .r2, .literal ⟨.decimal, "70000"⟩] .r3

theorem breaks_lowerStatement_wideCall :
    ∃ es e, Breaks (lowerStatement threeScope wideCall) 4 es 6 e ∧
      ∀ l : Listing, ∃ before a after fs,
        [.identifier "g", .register .r2, .literal ⟨.decimal, "70000"⟩] = before ++ a :: after ∧
        Passed threeScope 0 before 4 fs 6 ∧ Fails (loadArgument threeScope a) 6 e ∧
        (l.emitAll es).image =
          l.image ++ wordsFrom l.pending (saving 1) ++ wordsFrom none fs ∧
        (l.emitAll es).words = l.words + 7 + (wordsFrom none fs).length ∧
        (l.emitAll es).pending = none := by
  have hbreaks : ∃ es e, Breaks (lowerStatement threeScope wideCall) 4 es 6 e :=
    ⟨_, _, rfl, rfl, rfl⟩
  obtain ⟨es, e, h⟩ := hbreaks
  refine ⟨es, e, h, fun l => ((breaks_lowerStatement h l).2 _ _ _ rfl).2 ?_⟩
  exact ⟨rfl, by decide, by decide, fun _ => rfl⟩

end Lowering

end StumpGen
