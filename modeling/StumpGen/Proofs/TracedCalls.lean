import StumpGen.Proofs.Emission
import StumpGen.Proofs.FileEffects
import Mathlib.Logic.Function.Basic

/-!
# The calls of traced code are balanced

Code generation tells a tracer what it does on its way, and a job does so around it.  Both can end
early, at any statement, check or file.  This file follows all ways through them:

* `Emitter.IsSilent` : most code does not call the tracer at all.  It is proved for the statements,
  one kind after another, and for the declarations.
* `Trace.Balanced` : calls that close the spans they open, the last one first, each of them opened
  in the context of those that are still open.
* `balanced_compile` and `Job.balanced_run` : **whatever stops a compilation or a job, its calls are
  balanced.**
-/

namespace StumpGen

open Assembly

/-! ### Code that does not call the tracer -/

namespace Assembly.Emitter

variable {ε ε' σ α β : Type}

/-- The computation never calls the tracer. -/
def IsSilent (x : Emitter ε σ α) : Prop := ∀ s, (x s).calls = []

theorem isSilent_pure (a : α) : IsSilent (pure a : Emitter ε σ α) := fun _ => rfl

theorem isSilent_fail (e : ε) : IsSilent (fail e : Emitter ε σ α) := fun _ => rfl

theorem isSilent_emitAll (es : List Emission) : IsSilent (emitAll es : Emitter ε σ Unit) :=
  fun _ => rfl

theorem isSilent_getState : IsSilent (getState : Emitter ε σ σ) := fun _ => rfl

theorem isSilent_setState (s : σ) : IsSilent (setState s : Emitter ε σ Unit) := fun _ => rfl

/-- In front of silent computations. -/
theorem calls_bind_of_isSilent (x : Emitter ε σ α) {f : α → Emitter ε σ β}
    (hf : ∀ a, IsSilent (f a)) (s : σ) : ((x >>= f) s).calls = (x s).calls := by
  cases h : (x s).result with
  | error e => rw [bind_of_error h]
  | ok a => rw [bind_of_ok h, hf a, List.append_nil]

theorem IsSilent.bind {x : Emitter ε σ α} {f : α → Emitter ε σ β} (hx : IsSilent x)
    (hf : ∀ a, IsSilent (f a)) : IsSilent (x >>= f) :=
  fun s => (calls_bind_of_isSilent x hf s).trans (hx s)

/-- Behind emissions. -/
theorem IsSilent.emit {es : List Emission} {f : Unit → Emitter ε σ β} (hf : IsSilent (f ())) :
    IsSilent (emitAll es >>= f) := (isSilent_emitAll es).bind fun _ => hf

/-- Behind a check. -/
theorem IsSilent.check {r : Except ε α} {f : α → Emitter ε σ β} (hf : ∀ a, IsSilent (f a)) :
    IsSilent (ofExcept r >>= f) := IsSilent.bind (fun _ => rfl) hf

theorem IsSilent.mapError {x : Emitter ε σ α} (hx : IsSilent x) (f : ε → ε') :
    IsSilent (x.mapError f) := hx

end Assembly.Emitter

namespace Lowering

open Emitter

section Statement

variable (sc : Scope)

theorem isSilent_fresh : IsSilent fresh := fun _ => rfl

theorem isSilent_embed (dest : Reg) (word : Instruction) : IsSilent (embed dest word) :=
  isSilent_fresh.bind fun _ => .emit <| isSilent_fresh.bind fun _ => .emit <| .emit <| .emit <|
    isSilent_emitAll _

theorem isSilent_setConstant (dest : Reg) (v : Int) : IsSilent (setConstant dest v) := by
  unfold setConstant
  split
  · exact isSilent_emitAll _
  · exact .check fun _ => isSilent_embed dest _

theorem isSilent_loadVariable (dest : Reg) (name : Text) :
    IsSilent (loadVariable sc dest name) := by
  refine .check fun x => ?_
  cases x with
  | global => exact .emit <| (isSilent_embed dest _).bind fun _ => isSilent_emitAll _
  | slot i => exact .emit <| isSilent_emitAll _

theorem isSilent_loadAddress (dest : Reg) (name : Text) :
    IsSilent (loadAddress sc dest name) := by
  refine .check fun x => ?_
  cases x with
  | global => exact .emit <| isSilent_embed dest _
  | slot i => exact .emit <| isSilent_emitAll _

theorem isSilent_storeGlobal (name : Text) (src : Reg) : IsSilent (storeGlobal name src) :=
  isSilent_fresh.bind fun _ => .emit <| isSilent_fresh.bind fun _ => .emit <| .emit <|
    isSilent_fresh.bind fun _ => .emit <| .emit <| .emit <| isSilent_emitAll _

theorem isSilent_storeVariable (name : Text) (src : Reg) :
    IsSilent (storeVariable sc name src) := by
  refine .check fun x => ?_
  cases x with
  | global => exact .emit <| isSilent_storeGlobal name src
  | slot i => exact .emit <| isSilent_emitAll _

theorem isSilent_loadArgument (a : Argument) : IsSilent (loadArgument sc a) := by
  cases a with
  | identifier name =>
    refine .check fun x => ?_
    cases x with
    | global => exact (isSilent_embed _ _).bind fun _ => isSilent_emitAll _
    | slot i =>
      refine .emit ?_
      split
      · exact .emit <| .emit <| .emit <| isSilent_emitAll _
      · exact .emit <| isSilent_emitAll _
  | literal l => exact .check fun v => isSilent_setConstant _ v
  | register r =>
    refine .check fun m => ?_
    split
    · exact isSilent_emitAll _
    · exact isSilent_fail _

theorem isSilent_passArguments (k : Nat) (args : List Argument) :
    IsSilent (passArguments sc k args) := by
  induction args generalizing k with
  | nil => exact isSilent_pure ()
  | cons a as ih => exact (isSilent_loadArgument sc a).bind fun _ => .emit <| ih (k + 1)

theorem isSilent_lowerCall (callee : Text) (args : List Argument) (out : Register) :
    IsSilent (lowerCall sc callee args out) := by
  refine .check fun kept => .emit <| .emit <| ?_
  have hsave : IsSilent (saveRegisters sc.frame.length) := .emit <| .emit <| isSilent_emitAll _
  have henter : IsSilent (enter callee) :=
    isSilent_fresh.bind fun _ => isSilent_fresh.bind fun _ => isSilent_fresh.bind fun _ =>
      .emit <| .emit <| .emit <| .emit <| .emit <| isSilent_pure _
  have hrestore : IsSilent (restoreRegisters sc.frame.length kept) :=
    .emit <| .emit <| isSilent_emitAll _
  have hrest : IsSilent (do
      passArguments sc 0 args
      comment "Jumping"
      let resume ← enter callee
      comment "Restoring registers"
      label resume
      restoreRegisters sc.frame.length kept) :=
    (isSilent_passArguments sc 0 args).bind fun _ => .emit <| henter.bind fun _ =>
      .emit <| .emit hrestore
  refine hsave.bind fun _ => ?_
  dsimp only
  split
  · exact .emit hrest
  · exact hrest

/-- **Statements do not call the tracer.** -/
theorem isSilent_lowerStatement (st : Statement) : IsSilent (lowerStatement sc st) := by
  cases st with
  | addAssignImm dest value | addAssignReg dest src | cmpImm left value | cmpReg left right
  | loadReg dest src | storeReg addr src =>
    exact .check fun _ => .check fun _ => .emit <| isSilent_emitAll _
  | andImm dest left value | andReg dest left right | loadOffset dest base offset
  | storeOffset base offset value | shiftLeft dest src amount =>
    exact .check fun _ => .check fun _ => .check fun _ => .emit <| isSilent_emitAll _
  | addImm _ _ _ | addReg _ _ _ | testImm _ _ | testReg _ _ | leave => exact isSilent_fail _
  | goto target | nop => exact isSilent_emitAll _
  | gotoCond cond target =>
    rw [lowerStatement]
    split
    · exact isSilent_fail _
    · exact isSilent_emitAll _
  | label name => exact .emit <| .emit <| isSilent_emitAll _
  | load dest name => exact .check fun d => isSilent_loadVariable sc d name
  | loadAddr dest name => exact .check fun d => isSilent_loadAddress sc d name
  | store name src => exact .check fun s => isSilent_storeVariable sc name s
  | set dest value => exact .check fun d => .check fun v => .emit <| isSilent_setConstant d v
  | call callee args out => exact isSilent_lowerCall sc callee args out
  | declare name => exact isSilent_pure ()

end Statement

/-- **Declarations do not call the tracer.** -/
theorem isSilent_collect (es : List Element) : IsSilent (collect es) := by
  have hfunction (f : Function) : IsSilent (collectFunction f) := by
    refine isSilent_getState.bind fun s => ?_
    split
    · exact isSilent_fail _
    · exact isSilent_setState _
  have hglobal (name : Text) (data : Data) : IsSilent (collectGlobal name data) := by
    refine isSilent_getState.bind fun s => ?_
    split
    · exact isSilent_fail _
    · refine (isSilent_setState _).bind fun _ => .emit <| .emit ?_
      split
      · exact isSilent_pure ()
      · exact isSilent_fail _
  induction es with
  | nil => exact isSilent_pure ()
  | cons e es ih =>
    refine IsSilent.bind ?_ fun _ => ih
    cases e with
    | function f => exact hfunction f
    | global name data => exact hglobal name data

/-! ### The calls of a function -/

section Body

variable (sc : Scope) (k : Nat) (a : Bool) (st : Statement) (sts : List Statement) (n : Nat)

/-- The call that tells of the `k`-th statement. -/
def statementPoint : Trace.Call :=
  .point .function .statement ("stmt#" ++ Text.ofNat k) (Compilation.statementKind st)

/-- The point of a statement comes in front of its code, whether or not there is any. -/
theorem calls_lowerBody_cons :
    (lowerBody sc k a (st :: sts) n).calls = statementPoint k st ::
      ((((lowerStatement sc st).mapError fun e =>
        e.fault.within { element := sc.function, statement := k }) >>= fun _ =>
          lowerBody sc (k + 1) (!st.locals.isEmpty) sts) n).calls := by
  cases a <;> rfl

variable {sc st n}

theorem calls_lowerBody_of_error {e : Error} (h : (lowerStatement sc st n).result = .error e) :
    (lowerBody sc k a (st :: sts) n).calls = [statementPoint k st] := by
  rw [calls_lowerBody_cons, bind_of_error (by rw [mapError, h]; rfl)]
  exact congrArg _ (isSilent_lowerStatement sc st n)

theorem calls_lowerBody_of_ok {u : Unit} (h : (lowerStatement sc st n).result = .ok u) :
    (lowerBody sc k a (st :: sts) n).calls = statementPoint k st ::
      (lowerBody sc (k + 1) (!st.locals.isEmpty) sts (lowerStatement sc st n).state).calls := by
  rw [calls_lowerBody_cons, bind_of_ok (by rw [mapError, h]; rfl)]
  exact congrArg _ (congrArg (· ++ _) (isSilent_lowerStatement sc st n))

end Body

/-- A function opens its span, and leaves it open. -/
theorem calls_lowerFunction (s : Symbols) (f : Function) (n : Nat) :
    (lowerFunction s f n).calls = .opening .function .function ("func:" ++ f.name) [.pass] ::
      (lowerBody (.ofFunction s f) 1 false f.body n).calls := by
  have htail : IsSilent (do
      comment "Jumping back"
      code (.move .r7 .r5)
      comment ("--- Function " ++ f.name ++ " End ---") : Emitter Fault Nat Unit) :=
    .emit <| .emit <| isSilent_emitAll _
  exact congrArg _ (calls_bind_of_isSilent _ (fun _ => htail) n)

end Lowering

/-! ### Balanced calls -/

namespace Trace

/-- What an event tells without its numbers. -/
structure Mark where
  /-- What happens. -/
  kind : Kind
  /-- What it is about. -/
  scope : Scope
  /-- The name of the span or point. -/
  name : Text
  deriving DecidableEq, Repr

/-- What calls tell, one after another, if the holders have opened spans with given scopes and
names. -/
def marksAfter (last : Holder → Scope × Text) : List Call → List Mark
  | [] => []
  | .opening h scope name _ :: calls =>
    { kind := .opened, scope, name } :: marksAfter (Function.update last h (scope, name)) calls
  | .annotating _ _ _ :: calls => marksAfter last calls
  | .closing h _ :: calls =>
    { kind := .closed, scope := (last h).1, name := (last h).2 } :: marksAfter last calls
  | .point _ scope name _ :: calls => { kind := .point, scope, name } :: marksAfter last calls

/-- What calls tell, one after another. -/
def marks (calls : List Call) : List Mark := marksAfter (fun _ => default) calls

/-- Calls that are made while some spans are open, the innermost first, given with their holders and
scopes.  A span is opened in the context of all open spans, by someone who holds none of them; it is
closed when no span inside it is open any more.  A point lies in the innermost span, and is about
nothing wider.  The marks tell what happens. -/
inductive Balanced : List (Holder × Scope) → List Call → List Mark → Prop
  /-- Nothing is done. -/
  | nil {frames : List (Holder × Scope)} : Balanced frames [] []
  /-- Something happens at once. -/
  | point {h : Holder} {around scope : Scope} {frames : List (Holder × Scope)} {name : Text}
      {calls : List Call} {ms : List Mark} (detail : Text) (hdepth : scope.depth ≠ 0)
      (haround : around.depth ≤ scope.depth) (hcalls : Balanced ((h, around) :: frames) calls ms) :
      Balanced ((h, around) :: frames) (.point h scope name detail :: calls)
        ({ kind := .point, scope, name } :: ms)
  /-- A span is opened, something is done in it, it gets some remarks, and it is closed. -/
  | span {h : Holder} {scope : Scope} {frames : List (Holder × Scope)} {name : Text}
      {inner rest : List Call} {ms ms' : List Mark} (remarks : List (Text × Text)) (detail : Text)
      (hdepth : scope.depth ≠ 0) (hfree : h ∉ frames.map Prod.fst)
      (hinner : Balanced ((h, scope) :: frames) inner ms) (hrest : Balanced frames rest ms') :
      Balanced frames
        (.opening h scope name (frames.map Prod.fst) ::
          (inner ++ (remarks.map (fun r => .annotating h r.1 r.2) ++ .closing h detail :: rest)))
        ({ kind := .opened, scope, name } :: (ms ++ { kind := .closed, scope, name } :: ms'))

namespace Balanced

variable {frames : List (Holder × Scope)} {calls calls' : List Call} {ms ms' : List Mark}

theorem append (h : Balanced frames calls ms) (h' : Balanced frames calls' ms') :
    Balanced frames (calls ++ calls') (ms ++ ms') := by
  induction h with
  | nil => exact h'
  | point detail hdepth haround _ ih => exact .point detail hdepth haround (ih h')
  | span remarks detail hdepth hfree hinner _ _ ih =>
    simpa using Balanced.span remarks detail hdepth hfree hinner (ih h')

/-- The marks are those of the calls, and nothing that is held by an open span is lost. -/
theorem marksAfter_append (h : Balanced frames calls ms) (last : Holder → Scope × Text)
    (more : List Call) :
    ∃ last', (∀ f ∈ frames, last' f.1 = last f.1) ∧
      marksAfter last (calls ++ more) = ms ++ marksAfter last' more := by
  induction h generalizing last more with
  | nil => exact ⟨last, fun _ _ => rfl, rfl⟩
  | point detail hdepth haround _ ih =>
    obtain ⟨last', hkeep, hmarks⟩ := ih last more
    exact ⟨last', hkeep, congrArg _ hmarks⟩
  | @span h scope frames name inner rest ms ms' remarks detail hdepth hfree _ _ ihinner ihrest =>
    have hremarks (last : Holder → Scope × Text) (more : List Call) :
        marksAfter last (remarks.map (fun r => .annotating h r.1 r.2) ++ more) =
          marksAfter last more := by
      induction remarks with
      | nil => rfl
      | cons r remarks ih => exact ih
    obtain ⟨last₁, hkeep₁, hmarks₁⟩ := ihinner (Function.update last h (scope, name))
      (remarks.map (fun r => .annotating h r.1 r.2) ++ .closing h detail :: (rest ++ more))
    obtain ⟨last₂, hkeep₂, hmarks₂⟩ := ihrest last₁ more
    have hname : last₁ h = (scope, name) := by
      rw [hkeep₁ (h, scope) List.mem_cons_self, Function.update_self]
    refine ⟨last₂, fun f hf => ?_, ?_⟩
    · have hne : f.1 ≠ h := fun heq => hfree (heq ▸ List.mem_map_of_mem hf)
      rw [hkeep₂ f hf, hkeep₁ f (List.mem_cons_of_mem _ hf), Function.update_of_ne hne]
    · rw [hremarks] at hmarks₁
      simp only [List.cons_append, List.append_assoc, marksAfter, hmarks₁, hname, hmarks₂]

/-- **The marks are those of the calls.** -/
theorem marks_eq (h : Balanced frames calls ms) : marks calls = ms := by
  obtain ⟨_, -, hmarks⟩ := h.marksAfter_append (fun _ => default) []
  simpa [marks, marksAfter] using hmarks

/-- What the marks are about has a name. -/
theorem depth_ne_zero (h : Balanced frames calls ms) : ∀ m ∈ ms, m.scope.depth ≠ 0 := by
  induction h with
  | nil => exact List.forall_mem_nil _
  | point detail hdepth _ _ ih => exact List.forall_mem_cons.2 ⟨hdepth, ih⟩
  | span remarks detail hdepth hfree _ _ ihinner ihrest =>
    exact List.forall_mem_cons.2 ⟨hdepth, List.forall_mem_append.2
      ⟨ihinner, List.forall_mem_cons.2 ⟨hdepth, ihrest⟩⟩⟩

end Balanced

/-! ### The calls of a compilation -/

open Lowering Compilation

variable {frames : List (Holder × Scope)}

/-- The statements of a function are told of one after another, up to the first one that fails. -/
theorem balanced_lowerBody (frames : List (Holder × Scope)) (sc : Lowering.Scope) (k : Nat)
    (a : Bool) (sts : List Statement) (n : Nat) (outer : Context) :
    ∃ ms, Balanced ((.function, .function) :: frames)
      ((lowerBody sc k a sts n).calls.map (Call.within outer)) ms := by
  induction sts generalizing k a n with
  | nil => exact ⟨[], .nil⟩
  | cons st sts ih =>
    cases h : (lowerStatement sc st n).result with
    | error e =>
      rw [calls_lowerBody_of_error k a sts h]
      exact ⟨_, .point _ (by decide) (by decide) .nil⟩
    | ok u =>
      obtain ⟨ms, hms⟩ := ih (k + 1) (!st.locals.isEmpty) (lowerStatement sc st n).state
      rw [calls_lowerBody_of_ok k a sts h]
      exact ⟨_, .point _ (by decide) (by decide) hms⟩

/-- The span of a function is closed behind what was done for it, be that all or not. -/
theorem balanced_lowerFunction (s : Symbols) (f : Function) (n : Nat) (words : Text)
    (hfree : .function ∉ frames.map Prod.fst) {rest : List Call} {ms' : List Mark}
    (hrest : Balanced ((.pass, .pass) :: frames) rest ms') :
    ∃ ms, Balanced ((.pass, .pass) :: frames)
      ((lowerFunction s f n).calls.map (Call.within (frames.map Prod.fst)) ++
        .annotating .function "words" words :: .closing .function [] :: rest) ms := by
  obtain ⟨ms, hms⟩ := balanced_lowerBody ((.pass, .pass) :: frames) (.ofFunction s f) 1 false
    f.body n (frames.map Prod.fst)
  have hfree' : .function ∉ ((.pass, .pass) :: frames).map Prod.fst := by simpa using hfree
  rw [calls_lowerFunction]
  exact ⟨_, .span [("words", words)] [] (by decide) hfree' hms hrest⟩

theorem balanced_addFunctions (s : Symbols) (fs : List Function) (n : Nat) (l : Assembly.Listing)
    (hfree : .function ∉ frames.map Prod.fst) :
    ∃ ms, Balanced ((.pass, .pass) :: frames)
      ((addFunctions l (generate s n fs)).2.map (Call.within (frames.map Prod.fst))) ms := by
  induction fs generalizing n l with
  | nil => exact ⟨[], .nil⟩
  | cons f fs ih =>
    rw [generate]
    cases (lowerFunction s f n).result with
    | error e =>
      obtain ⟨ms, hms⟩ := balanced_lowerFunction s f n _ hfree .nil
      refine ⟨ms, ?_⟩
      simpa [addFunctions, Call.within] using hms
    | ok u =>
      obtain ⟨ms', hms'⟩ :=
        ih (lowerFunction s f n).state (l.emitAll (lowerFunction s f n).emissions)
      obtain ⟨ms, hms⟩ := balanced_lowerFunction s f n _ hfree hms'
      refine ⟨ms, ?_⟩
      simpa [addFunctions, Call.within] using hms

/-- The span of a pass is closed behind what was done in it. -/
theorem balanced_pass (name : Text) (remarks : List (Text × Text))
    (hfree : .pass ∉ frames.map Prod.fst) {inner rest : List Call} {ms ms' : List Mark}
    (hinner : Balanced ((.pass, .pass) :: frames) inner ms) (hrest : Balanced frames rest ms') :
    ∃ ms, Balanced frames
      (.opening .pass .pass name (frames.map Prod.fst) ::
        (inner ++ (remarks.map (fun r => .annotating .pass r.1 r.2) ++
          .closing .pass [] :: rest))) ms :=
  ⟨_, .span remarks [] (by decide) hfree hinner hrest⟩

theorem map_within_nil (calls : List Call) : calls.map (Call.within []) = calls := by
  have hwithin (c : Call) : c.within [] = c := by cases c <;> simp [Call.within]
  exact (List.map_congr_left fun c _ => hwithin c).trans (List.map_id _)

/-- **The calls of a compilation are balanced**, whatever stops it, also inside other spans. -/
theorem balanced_compile (frames : List (Holder × Scope)) (hpass : .pass ∉ frames.map Prod.fst)
    (hfunction : .function ∉ frames.map Prod.fst) (p : Program) (o : Options) :
    ∃ ms,
      Balanced frames ((compile p o).activities.map (Call.within (frames.map Prod.fst))) ms := by
  have hcollect : (collect p {}).calls = [] := isSilent_collect p {}
  let counts : List (Text × Text) :=
    [("globals", Text.ofNat (collect p {}).state.globals.length),
      ("functions", Text.ofNat (collect p {}).state.functions.length)]
  cases hc : (collect p {}).result with
  | error e =>
    obtain ⟨ms, hfirst⟩ := balanced_pass "collect" counts hpass .nil .nil
    exact ⟨ms, by simpa [compile, hc, hcollect, Call.within, counts] using hfirst⟩
  | ok u =>
    let data := (Listing.emitAll {} (prologue o.effective)).emitAll (collect p {}).emissions
    let code := addFunctions data (generate (collect p {}).state 0 p.functions)
    obtain ⟨_, hfunctions⟩ :=
      balanced_addFunctions (collect p {}).state p.functions 0 data hfunction
    obtain ⟨_, hsecond⟩ := balanced_pass "generate" [("words", Text.ofNat code.1.words)] hpass
      hfunctions .nil
    obtain ⟨ms, hboth⟩ := balanced_pass "collect" counts hpass .nil hsecond
    refine ⟨ms, ?_⟩
    cases hf : firstFault (generate (collect p {}).state 0 p.functions) <;>
      simpa [compile, hc, hf, hcollect, Call.within, counts, data, code] using hboth

/-! ### The calls of a job -/

/-- The span of a job is closed behind what was done in it. -/
theorem balanced_result (r : Job.Request) {e : Job.Ending} {inner : List Call} {ms : List Mark}
    (hcalls : e.calls = Job.openingCalls ++ inner) (hinner : Balanced [(.job, .driver)] inner ms) :
    ∃ ms, Balanced [] (r.result e).calls ms := by
  have hspan : (r.result e).calls = .opening .job .driver "compile" [] ::
      (inner ++ ([("file", r.input)].map (fun r => Call.annotating .job r.1 r.2) ++
        [.closing .job (if e.fault.isSome then "failed" else "ok")])) := by
    simp [Job.Request.result, hcalls, Job.openingCalls]
  rw [hspan]
  exact ⟨_, .span [("file", r.input)] _ (by decide) (List.not_mem_nil) hinner .nil⟩

/-- That the cache could not be written is told inside the span of the job. -/
theorem balanced_trouble {trouble : List Call}
    (h : ∀ c ∈ trouble, ∃ message, c = .point .job .driver "cache" message) :
    ∃ ms, Balanced [(.job, .driver)] trouble ms := by
  induction trouble with
  | nil => exact ⟨[], .nil⟩
  | cons c trouble ih =>
    obtain ⟨⟨message, rfl⟩, htrouble⟩ := List.forall_mem_cons.1 h
    obtain ⟨ms, hms⟩ := ih htrouble
    exact ⟨_, .point message (by decide) (Nat.le_refl _) hms⟩

/-- **The calls of a job are balanced**, wherever it ends. -/
theorem balanced_run (r : Job.Request) (tree : FileTree) :
    ∃ ms, Balanced [] (tree.perform (Job.run r)).1.calls ms := by
  cases hl : Job.loaded r tree with
  | error f =>
    obtain ⟨runs, hr⟩ := Job.run_error hl
    rw [hr]
    exact balanced_result r rfl .nil
  | ok found =>
    obtain ⟨contents, p⟩ := found
    cases he : Job.fresh? r tree contents with
    | some e =>
      obtain ⟨runs, hr⟩ := Job.run_fresh hl he
      rw [hr]
      exact balanced_result r rfl .nil
    | none =>
      obtain ⟨⟨e, hr, hfollows⟩, -⟩ := Job.run_stale (fun _ => True) hl he
      obtain ⟨trouble, hcalls, htrouble⟩ := hfollows.calls
      obtain ⟨_, hcompile⟩ := balanced_compile [(.job, .driver)] (by decide) (by decide) p r.options
      obtain ⟨_, hlast⟩ := balanced_trouble htrouble
      rw [hr]
      exact balanced_result r (hcalls.trans (List.append_assoc ..)) (hcompile.append hlast)

end Trace

end StumpGen
