import StumpGen.Proofs.Lowering
import StumpGen.Compilation
import Mathlib.Data.List.Nodup

/-!
# Where the code of a statement stands

The image of a program that compiles is made by one long sequence of emissions: the bootstrap, the
data of the globals, the functions one after another and the start of the stack.

* `compile_emissions` : that sequence, with what each pass emitted.
* `Site` : a statement of a program, by what stands around it.  `Site.start` and `Site.stop` are the
  numbers of words before and after its code.
* `Site.placed` : the words of the image between these two are those of the lowered statement.
* `image_labels` : the labels of the image are the fixed ones, one for each global and function,
  those that the code generator made up, each once, and those that statements mark.
-/

namespace StumpGen

open Assembly Lowering Emitter

/-- The names of the globals, in order. -/
def Program.globals (p : Program) : List Text :=
  p.filterMap fun
    | .global name _ => some name
    | .function _ => none

/-- The labels that a function marks. -/
def Function.labels (f : Function) : List Text := f.body.flatMap Statement.labels

namespace Lowering

/-! ### The first pass -/

theorem runs_collectFunction {f : Function} {s s' : Symbols} {es : List Emission} {u : Unit} :
    Runs (collectFunction f) s es s' u ↔
      s.arity? f.name = none ∧ es = [] ∧ s' = s.addFunction f := by
  simp only [collectFunction, runs_bind, runs_getState]
  constructor
  · rintro ⟨_, _, _, _, ⟨rfl, rfl, rfl⟩, h, rfl⟩
    split at h
    · exact absurd h runs_fail
    · rename_i ha
      obtain ⟨rfl, rfl⟩ := runs_setState.1 h
      exact ⟨by simpa using ha, rfl, rfl⟩
  · rintro ⟨ha, rfl, rfl⟩
    refine ⟨[], s, s, [], ⟨rfl, rfl, rfl⟩, ?_, rfl⟩
    simp [ha]

/-- What the first pass emits for a global. -/
def globalEmissions (name : Text) (words : List Int) : List Emission :=
  [.blank, .comment ("Global " ++ name), .label (Label.global name)]
    ++ (words.map Instruction.data).map .code

theorem runs_collectGlobal {name : Text} {data : Data} {s s' : Symbols} {es : List Emission}
    {u : Unit} :
    Runs (collectGlobal name data) s es s' u ↔
      s.isGlobal name = false ∧ (dataWords name data).2 = none ∧
        es = globalEmissions name (dataWords name data).1 ∧ s' = s.addGlobal name := by
  simp only [collectGlobal, runs_bind, runs_getState]
  constructor
  · rintro ⟨_, _, _, _, ⟨rfl, rfl, rfl⟩, h, rfl⟩
    split at h
    · exact absurd h runs_fail
    · rename_i hg
      simp only [runs_bind, runs_setState, runs_emitAll, runs_codes] at h
      obtain ⟨_, _, _, _, ⟨rfl, rfl⟩, ⟨_, _, _, _, ⟨rfl, rfl⟩, ⟨_, _, _, _, ⟨rfl, rfl⟩, h, rfl⟩,
        rfl⟩, rfl⟩ := h
      cases hw : (dataWords name data).2 with
      | some e => simp [hw] at h
      | none =>
        simp only [hw, runs_pure] at h
        obtain ⟨rfl, rfl, -⟩ := h
        exact ⟨by simpa using hg, rfl, by simp [globalEmissions], rfl⟩
  · rintro ⟨hg, hw, rfl, rfl⟩
    refine ⟨[], s, s, _, ⟨rfl, rfl, rfl⟩, ?_, rfl⟩
    simp [hg, hw, runs_bind]

theorem names_globalEmissions (name : Text) (words : List Int) :
    names (globalEmissions name words) = [Label.global name] := by
  rw [globalEmissions, names_append, names_map_code]
  rfl

theorem arity?_eq_none_iff {s : Symbols} {name : Text} :
    s.arity? name = none ↔ name ∉ s.functions.map Prod.fst :=
  Text.lookup_eq_none_iff

/-- What is known of the symbols when all elements of a program have been seen. -/
theorem runs_collect {p : Program} {s s' : Symbols} {es : List Emission} {u : Unit}
    (h : Runs (collect p) s es s' u) :
    names es = p.globals.map Label.global ∧
      s'.globals = p.globals.reverse ++ s.globals ∧
      s'.functions = (p.functions.map fun f => (f.name, f.arity)).reverse ++ s.functions ∧
      (s.globals.Nodup → s'.globals.Nodup) ∧
      ((s.functions.map Prod.fst).Nodup → (s'.functions.map Prod.fst).Nodup) := by
  induction p generalizing s es with
  | nil =>
    simp only [collect, runs_pure] at h
    obtain ⟨rfl, rfl, -⟩ := h
    exact ⟨rfl, rfl, rfl, id, id⟩
  | cons e p ih =>
    simp only [collect, runs_bind] at h
    obtain ⟨es₁, s₁, _, es₂, he, hp, rfl⟩ := h
    obtain ⟨hn, hg, hf, hgn, hfn⟩ := ih hp
    cases e with
    | function f =>
      obtain ⟨ha, rfl, rfl⟩ := runs_collectFunction.1 he
      refine ⟨hn, hg, ?_, hgn, fun h => hfn ?_⟩
      · rw [hf]; simp [Symbols.addFunction, Program.functions]
      · exact List.nodup_cons.2 ⟨arity?_eq_none_iff.1 ha, h⟩
    | global name data =>
      obtain ⟨ha, hw, rfl, rfl⟩ := runs_collectGlobal.1 he
      refine ⟨?_, ?_, hf, fun h => hgn ?_, hfn⟩
      · rw [names_append, names_globalEmissions, hn]; simp [Program.globals]
      · rw [hg]; simp [Symbols.addGlobal, Program.globals]
      · exact List.nodup_cons.2 ⟨by simpa [Symbols.isGlobal] using ha, h⟩

theorem runs_collect_nodup {p : Program} {s : Symbols} {es : List Emission} {u : Unit}
    (h : Runs (collect p) {} es s u) :
    p.globals.Nodup ∧ (p.functions.map Function.name).Nodup := by
  obtain ⟨-, hg, hf, hgn, hfn⟩ := runs_collect h
  have hgn := hgn List.nodup_nil
  have hfn := hfn List.nodup_nil
  rw [hg, List.append_nil] at hgn
  rw [hf, List.append_nil, List.map_reverse, List.map_map] at hfn
  exact ⟨List.nodup_reverse.1 hgn, List.nodup_reverse.1 hfn⟩

/-- All that the first pass emits is the data of globals. -/
theorem runs_collect_mem {p : Program} {s s' : Symbols} {es : List Emission} {u : Unit}
    (h : Runs (collect p) s es s' u) {e : Emission} (he : e ∈ es) :
    ∃ name ∈ p.globals, ∃ words, e ∈ globalEmissions name words := by
  induction p generalizing s es with
  | nil =>
    simp only [collect, runs_pure] at h
    obtain ⟨rfl, -⟩ := h
    cases he
  | cons x p ih =>
    simp only [collect, runs_bind] at h
    obtain ⟨es₁, s₁, _, es₂, hx, hp, rfl⟩ := h
    cases x with
    | function f =>
      obtain ⟨-, rfl, -⟩ := runs_collectFunction.1 hx
      exact ih hp he
    | global name data =>
      obtain ⟨-, -, rfl, -⟩ := runs_collectGlobal.1 hx
      rcases List.mem_append.1 he with he | he
      · exact ⟨name, by simp [Program.globals], _, he⟩
      · obtain ⟨n, hn, words, hw⟩ := ih hp he
        exact ⟨n, List.mem_cons_of_mem _ hn, words, hw⟩

/-! ### The second pass -/

/-- The blank line in front of a statement that does not follow a declaration. -/
def gap (afterLocal : Bool) : List Emission := if afterLocal then [] else [.blank]

theorem runs_lowerBody_cons {sc : Scope} {k : Nat} {a : Bool} {st : Statement}
    {sts : List Statement} {n t : Nat} {es : List Emission} {u : Unit} :
    Runs (lowerBody sc k a (st :: sts)) n es t u ↔
      ∃ es₁ m es₂, Lowered sc st n es₁ m ∧
        Runs (lowerBody sc (k + 1) (!st.locals.isEmpty) sts) m es₂ t u ∧
        es = gap a ++ es₁ ++ es₂ := by
  have step : ∀ {es : List Emission}, Runs (do
        (lowerStatement sc st).mapError fun e =>
          e.fault.within { element := sc.function, statement := k }
        lowerBody sc (k + 1) (!st.locals.isEmpty) sts) n es t u ↔
      ∃ es₁ m es₂, Lowered sc st n es₁ m ∧
        Runs (lowerBody sc (k + 1) (!st.locals.isEmpty) sts) m es₂ t u ∧ es = es₁ ++ es₂ := by
    intro es
    simp only [runs_bind, runs_mapError, runs_lowerStatement]
    constructor
    · rintro ⟨es₁, m, -, es₂, h₁, h₂, rfl⟩; exact ⟨es₁, m, es₂, h₁, h₂, rfl⟩
    · rintro ⟨es₁, m, es₂, h₁, h₂, rfl⟩; exact ⟨es₁, m, (), es₂, h₁, h₂, rfl⟩
  cases a with
  | true => simp only [lowerBody, Bool.not_true, Bool.false_eq_true, ↓reduceIte,
      runs_trace_bind, step, gap, List.nil_append]
  | false =>
    simp only [lowerBody, Bool.not_false, ↓reduceIte, runs_emitAll_bind, runs_trace_bind, step, gap,
      Bool.false_eq_true]
    constructor
    · rintro ⟨_, ⟨es₁, m, es₂, h₁, h₂, rfl⟩, rfl⟩; exact ⟨es₁, m, es₂, h₁, h₂, by simp⟩
    · rintro ⟨es₁, m, es₂, h₁, h₂, rfl⟩; exact ⟨_, ⟨es₁, m, es₂, h₁, h₂, rfl⟩, by simp⟩

theorem runs_lowerBody_nil {sc : Scope} {k : Nat} {a : Bool} {n t : Nat} {es : List Emission}
    {u : Unit} : Runs (lowerBody sc k a []) n es t u ↔ es = [] ∧ t = n := by
  simp [lowerBody]

/-- A body is lowered statement by statement. -/
theorem runs_lowerBody_append {sc : Scope} {k : Nat} {a : Bool} {before : List Statement}
    {st : Statement} {after : List Statement} {n t : Nat} {es : List Emission} {u : Unit}
    (h : Runs (lowerBody sc k a (before ++ st :: after)) n es t u) :
    ∃ es₁ n₁ b es₂ n₂ es₃, Runs (lowerBody sc k a before) n es₁ n₁ () ∧
      Lowered sc st n₁ es₂ n₂ ∧
      Runs (lowerBody sc k a (before ++ [st])) n (es₁ ++ gap b ++ es₂) n₂ () ∧
      es = es₁ ++ gap b ++ es₂ ++ es₃ := by
  induction before generalizing k a n es with
  | nil =>
    obtain ⟨es₂, n₂, es₃, h₁, -, rfl⟩ := runs_lowerBody_cons.1 h
    refine ⟨[], n, a, es₂, n₂, es₃, runs_lowerBody_nil.2 ⟨rfl, rfl⟩, h₁, ?_, rfl⟩
    exact runs_lowerBody_cons.2 ⟨es₂, n₂, [], h₁, runs_lowerBody_nil.2 ⟨rfl, rfl⟩, by simp⟩
  | cons x before ih =>
    obtain ⟨es₀, m, es', hx, h', rfl⟩ := runs_lowerBody_cons.1 h
    obtain ⟨es₁, n₁, b, es₂, n₂, es₃, h₁, h₂, h₃, rfl⟩ := ih h'
    refine ⟨gap a ++ es₀ ++ es₁, n₁, b, es₂, n₂, es₃, ?_, h₂, ?_, by simp⟩
    · exact runs_lowerBody_cons.2 ⟨es₀, m, es₁, hx, h₁, rfl⟩
    · exact runs_lowerBody_cons.2 ⟨es₀, m, _, hx, h₃, by simp⟩

theorem names_gap (a : Bool) : names (gap a) = [] := by cases a <;> rfl

theorem runs_lowerBody_names {sc : Scope} {k : Nat} {a : Bool} {sts : List Statement} {n t : Nat}
    {es : List Emission} {u : Unit} (h : Runs (lowerBody sc k a sts) n es t u) :
    n ≤ t ∧ (names es).Perm
      (generatedFrom n t ++ (sts.flatMap Statement.labels).map (Label.user sc.function)) := by
  induction sts generalizing k a n es with
  | nil =>
    obtain ⟨rfl, rfl⟩ := runs_lowerBody_nil.1 h
    exact ⟨Nat.le_refl _, by simp [generatedFrom_self]⟩
  | cons st sts ih =>
    obtain ⟨es₁, m, es₂, h₁, h₂, rfl⟩ := runs_lowerBody_cons.1 h
    obtain ⟨hnm, hp⟩ := h₁.names_perm
    obtain ⟨hmt, hq⟩ := ih h₂
    refine ⟨Nat.le_trans hnm hmt, ?_⟩
    rw [names_append, names_append, names_gap, List.nil_append, ← generatedFrom_append hnm hmt,
      List.flatMap_cons, List.map_append]
    refine (hp.append hq).trans ?_
    simp only [List.append_assoc]
    exact (List.perm_append_comm_assoc _ _ _).append_left _

/-- Between blank lines, a body emits what its statements are lowered to. -/
theorem runs_lowerBody_mem {sc : Scope} {k : Nat} {a : Bool} {sts : List Statement} {n t : Nat}
    {es : List Emission} {u : Unit} (h : Runs (lowerBody sc k a sts) n es t u) :
    (∀ e ∈ es, e = .blank ∨ ∃ st ∈ sts, ∃ m fs l, Lowered sc st m fs l ∧ e ∈ fs) ∧
      ∀ st ∈ sts, ∃ m fs l, Lowered sc st m fs l ∧ fs ⊆ es := by
  induction sts generalizing k a n es with
  | nil =>
    obtain ⟨rfl, -⟩ := runs_lowerBody_nil.1 h
    simp
  | cons st sts ih =>
    obtain ⟨es₁, m, es₂, h₁, h₂, rfl⟩ := runs_lowerBody_cons.1 h
    obtain ⟨hin, hout⟩ := ih h₂
    constructor
    · intro e he
      simp only [List.mem_append] at he
      rcases he with (he | he) | he
      · have hgap : ∀ e ∈ gap a, e = .blank := by cases a <;> simp [gap]
        exact .inl (hgap e he)
      · exact .inr ⟨st, by simp, n, es₁, m, h₁, he⟩
      · rcases hin e he with rfl | ⟨st', hst, hl⟩
        · exact .inl rfl
        · exact .inr ⟨st', by simp [hst], hl⟩
    · intro st' hst
      rcases List.mem_cons.1 hst with rfl | hst
      · exact ⟨n, es₁, m, h₁, fun e he => by simp [he]⟩
      · obtain ⟨m', fs, l, hl, hsub⟩ := hout st' hst
        exact ⟨m', fs, l, hl, fun e he => by simp [hsub he]⟩

/-- The first lines of a function. -/
def functionHead (f : Function) : List Emission :=
  [.blank, .blank, .comment ("--- Function " ++ f.name ++ " Start ---"),
    .label (Label.function f.name)]

/-- The last lines of a function. -/
def functionTail (f : Function) : List Emission :=
  [.comment "Jumping back", .code (.move .r7 .r5),
    .comment ("--- Function " ++ f.name ++ " End ---")]

theorem runs_lowerFunction {s : Symbols} {f : Function} {n t : Nat} {es : List Emission}
    {u : Unit} :
    Runs (lowerFunction s f) n es t u ↔
      ∃ es₁, Runs (lowerBody (.ofFunction s f) 1 false f.body) n es₁ t () ∧
        es = functionHead f ++ es₁ ++ functionTail f := by
  simp only [lowerFunction, runs_trace_bind, runs_emitAll_bind]
  rw [← functionHead]
  constructor
  · rintro ⟨_, h, rfl⟩
    rw [runs_bind] at h
    obtain ⟨es₁, _, _, _, h₁, h₂, rfl⟩ := h
    simp only [runs_comment_bind, runs_code_bind, runs_comment] at h₂
    obtain ⟨_, ⟨_, ⟨rfl, rfl⟩, rfl⟩, rfl⟩ := h₂
    exact ⟨es₁, h₁, by simp [functionTail]⟩
  · rintro ⟨es₁, h₁, rfl⟩
    refine ⟨_, ?_, by rw [List.append_assoc]⟩
    refine runs_bind.2 ⟨es₁, t, (), _, h₁, ?_, rfl⟩
    simp [runs_comment_bind, runs_code_bind, functionTail]

/-- Lowers functions in order. -/
def lowerFunctions (s : Symbols) : List Function → Emitter Fault Nat Unit
  | [] => pure ()
  | f :: fs => do
    lowerFunction s f
    lowerFunctions s fs

theorem runs_lowerFunctions_append {s : Symbols} {fs gs : List Function} {n t : Nat}
    {es : List Emission} {u : Unit} :
    Runs (lowerFunctions s (fs ++ gs)) n es t u ↔
      ∃ es₁ m es₂, Runs (lowerFunctions s fs) n es₁ m () ∧ Runs (lowerFunctions s gs) m es₂ t u ∧
        es = es₁ ++ es₂ := by
  induction fs generalizing n es with
  | nil =>
    simp only [List.nil_append, lowerFunctions, runs_pure]
    constructor
    · intro h; exact ⟨[], n, es, ⟨rfl, rfl, trivial⟩, h, rfl⟩
    · rintro ⟨_, _, _, ⟨rfl, rfl, -⟩, h, rfl⟩; exact h
  | cons f fs ih =>
    simp only [List.cons_append, lowerFunctions, runs_bind, ih]
    constructor
    · rintro ⟨es₁, m, x, _, h₁, ⟨es₂, m', es₃, h₂, h₃, rfl⟩, rfl⟩
      exact ⟨_, m', es₃, ⟨es₁, m, x, es₂, h₁, h₂, rfl⟩, h₃, by simp⟩
    · rintro ⟨_, m', es₃, ⟨es₁, m, x, es₂, h₁, h₂, rfl⟩, h₃, rfl⟩
      exact ⟨es₁, m, x, _, h₁, ⟨es₂, m', es₃, h₂, h₃, rfl⟩, by simp⟩

theorem runs_lowerFunctions_names {s : Symbols} {fs : List Function} {n t : Nat}
    {es : List Emission} {u : Unit} (h : Runs (lowerFunctions s fs) n es t u) :
    n ≤ t ∧ (names es).Perm (fs.map (fun f => Label.function f.name) ++ generatedFrom n t
      ++ fs.flatMap fun f => f.labels.map (Label.user f.name)) := by
  induction fs generalizing n es with
  | nil =>
    simp only [lowerFunctions, runs_pure] at h
    obtain ⟨rfl, rfl, -⟩ := h
    exact ⟨Nat.le_refl _, by simp [generatedFrom_self]⟩
  | cons f fs ih =>
    simp only [lowerFunctions, runs_bind] at h
    obtain ⟨es₁, m, _, es₂, h₁, h₂, rfl⟩ := h
    obtain ⟨body, hb, rfl⟩ := runs_lowerFunction.1 h₁
    obtain ⟨hnm, hp⟩ := runs_lowerBody_names hb
    obtain ⟨hmt, hq⟩ := ih h₂
    refine ⟨Nat.le_trans hnm hmt, ?_⟩
    have hf : names (functionHead f) = [Label.function f.name] := rfl
    have ht : names (functionTail f) = [] := rfl
    rw [names_append, names_append, names_append, hf, ht, ← generatedFrom_append hnm hmt,
      List.append_nil]
    refine ((hp.append hq).cons (Label.function f.name)).trans ?_
    rw [List.perm_iff_count]
    intro x
    simp only [List.map_cons, List.flatMap_cons, List.count_append, List.count_cons,
      Function.labels, Scope.ofFunction]
    omega

/-- All that the second pass emits are the first and last lines of functions, blank lines and what
statements are lowered to. -/
theorem runs_lowerFunctions_mem {s : Symbols} {fs : List Function} {n t : Nat}
    {es : List Emission} {u : Unit} (h : Runs (lowerFunctions s fs) n es t u) :
    (∀ e ∈ es, ∃ f ∈ fs, e ∈ functionHead f ++ functionTail f ∨ e = .blank ∨
      ∃ st ∈ f.body, ∃ m gs l, Lowered (.ofFunction s f) st m gs l ∧ e ∈ gs) ∧
      ∀ f ∈ fs, ∀ st ∈ f.body, ∃ m gs l, Lowered (.ofFunction s f) st m gs l ∧ gs ⊆ es := by
  induction fs generalizing n es with
  | nil =>
    simp only [lowerFunctions, runs_pure] at h
    obtain ⟨rfl, -⟩ := h
    simp
  | cons f fs ih =>
    simp only [lowerFunctions, runs_bind] at h
    obtain ⟨es₁, m, _, es₂, h₁, h₂, rfl⟩ := h
    obtain ⟨body, hb, rfl⟩ := runs_lowerFunction.1 h₁
    obtain ⟨hin, hout⟩ := ih h₂
    obtain ⟨hbin, hbout⟩ := runs_lowerBody_mem hb
    constructor
    · intro e he
      simp only [List.mem_append] at he
      rcases he with ((he | he) | he) | he
      · exact ⟨f, by simp, .inl (by simp [he])⟩
      · exact ⟨f, by simp, .inr (hbin e he)⟩
      · exact ⟨f, by simp, .inl (by simp [he])⟩
      · obtain ⟨g, hg, h⟩ := hin e he
        exact ⟨g, by simp [hg], h⟩
    · intro g hg st hst
      rcases List.mem_cons.1 hg with rfl | hg
      · obtain ⟨m', gs, l, hl, hsub⟩ := hbout st hst
        exact ⟨m', gs, l, hl, fun e he => by simp [hsub he]⟩
      · obtain ⟨m', gs, l, hl, hsub⟩ := hout g hg st hst
        exact ⟨m', gs, l, hl, fun e he => by simp [hsub he]⟩

theorem firstFault_generate {s : Symbols} {fs : List Function} {n : Nat}
    (h : Compilation.firstFault (generate s n fs) = none) :
    ∃ t, Runs (lowerFunctions s fs) n
      ((generate s n fs).flatMap LoweredFunction.emissions) t () := by
  induction fs generalizing n with
  | nil => exact ⟨n, by simp [lowerFunctions, generate]⟩
  | cons f fs ih =>
    rw [generate] at h ⊢
    cases hr : (lowerFunction s f n).result with
    | error e => simp [hr, Compilation.firstFault] at h
    | ok u =>
      simp only [hr, Compilation.firstFault, List.findSome?_cons] at h ⊢
      obtain ⟨t, ht⟩ := ih h
      exact ⟨t, runs_bind.2 ⟨_, _, (), _, runs_of_result hr, ht, rfl⟩⟩

end Lowering

namespace Compilation

theorem addFunctions_fst (l : Listing) (fs : List LoweredFunction) :
    (addFunctions l fs).1 = l.emitAll (fs.flatMap LoweredFunction.emissions) := by
  induction fs generalizing l with
  | nil => rfl
  | cons f fs ih => rw [addFunctions, List.flatMap_cons, Listing.emitAll_append, ← ih]

end Compilation

/-! ### The whole image -/

/-- The functions of a program in order, each with what it is lowered to. -/
def Program.lowered (p : Program) : List LoweredFunction :=
  generate (collect p {}).state 0 p.functions

/-- What stops a compilation, in either pass. -/
theorem compile_fault (p : Program) (o : Options) :
    (compile p o).fault = match (collect p {}).result with
      | .error e => some e
      | .ok () => Compilation.firstFault p.lowered := by
  unfold compile Program.lowered
  cases hc : (collect p {}).result with
  | error e => simp only [hc]
  | ok u =>
    cases hf : Compilation.firstFault (generate (collect p {}).state 0 (Program.functions p)) <;>
      simp only [hc, hf]

/-- What both passes over a program emit when nothing stops them. -/
structure Passes (p : Program) where
  /-- The names that the program declares. -/
  symbols : Symbols
  /-- What the first pass emits. -/
  data : List Emission
  /-- What the second pass emits. -/
  code : List Emission
  /-- The number of labels that the second pass makes up. -/
  count : Nat
  collected : Runs (collect p) {} data symbols ()
  generated : Runs (lowerFunctions symbols p.functions) 0 code count ()

/-- All emissions of a compilation. -/
def Passes.emissions {p : Program} (x : Passes p) (o : Options) : List Emission :=
  Compilation.prologue o.effective ++ x.data ++ x.code ++ Compilation.epilogue

/-- **The listing of a program that compiles** is that of the emissions of both passes between
the bootstrap and the stack. -/
theorem compile_emissions {p : Program} {o : Options} (h : (compile p o).fault = none) :
    ∃ x : Passes p, (compile p o).listing = Listing.emitAll {} (x.emissions o) := by
  unfold compile at h ⊢
  cases hc : (collect p {}).result with
  | error e => simp [hc] at h
  | ok u =>
    simp only [hc] at h ⊢
    cases hf : Compilation.firstFault (generate (collect p {}).state 0 (Program.functions p)) with
    | some e => simp [hf] at h
    | none =>
      obtain ⟨t, ht⟩ := firstFault_generate hf
      refine ⟨⟨_, _, _, t, runs_of_result hc, ht⟩, ?_⟩
      simp only [Compilation.addFunctions_fst, Passes.emissions, Listing.emitAll_append]

/-! ### Labels of the image -/

/-- The labels that statements mark. -/
def Program.userLabels (p : Program) : List Text :=
  p.functions.flatMap fun f => f.labels.map (Label.user f.name)

namespace Passes

variable {p : Program} (x : Passes p) (o : Options)

/-- The labels that no statement marks. -/
def ownLabels : List Text :=
  [Label.stackPointer, Label.exit, Label.stack] ++ (p.globals.map Label.global
    ++ (p.functions.map (fun f => Label.function f.name) ++ generatedFrom 0 x.count))

include x in
theorem globals_nodup : p.globals.Nodup := (runs_collect_nodup x.collected).1

include x in
theorem functions_nodup : (p.functions.map Function.name).Nodup :=
  (runs_collect_nodup x.collected).2

theorem isGlobal_iff {name : Text} : x.symbols.isGlobal name = true ↔ name ∈ p.globals := by
  obtain ⟨-, hg, -⟩ := runs_collect x.collected
  simp [Symbols.isGlobal, hg]

theorem mem_functions_of_arity {name : Text} {k : Nat} (h : x.symbols.arity? name = some k) :
    name ∈ p.functions.map Function.name := by
  obtain ⟨-, -, hf, -⟩ := runs_collect x.collected
  by_contra hn
  have : x.symbols.arity? name = none := by
    rw [arity?_eq_none_iff, hf]
    simpa [Function.comp_def] using hn
  simp [this] at h

theorem generatedFrom_nodup (n t : Nat) : (generatedFrom n t).Nodup :=
  (List.nodup_range').map Label.generated_injective

theorem ownLabels_nodup : x.ownLabels.Nodup := by
  -- labels of different families start with different bytes
  have sep : ∀ {as bs : List Text} {b : UInt8}, (∀ l ∈ as, l.head? ≠ some b) →
      (∀ l ∈ bs, l.head? = some b) → ∀ l ∈ as, ∀ l' ∈ bs, l ≠ l' := by
    rintro as bs b has hbs l hl _ hl' rfl
    exact has l hl (hbs l hl')
  have hg : (p.globals.map Label.global).Nodup := x.globals_nodup.map Label.global_injective
  have hf : (p.functions.map fun f => Label.function f.name).Nodup := by
    rw [← Function.comp_def, ← List.map_map]
    exact x.functions_nodup.map Label.function_injective
  have hfa : ∀ l ∈ p.functions.map (fun f => Label.function f.name),
      ∀ l' ∈ generatedFrom 0 x.count, l ≠ l' :=
    sep (b := 97) (by simp) (by simp [generatedFrom])
  refine List.nodup_append.2 ⟨by decide, List.nodup_append.2 ⟨hg, List.nodup_append.2
    ⟨hf, generatedFrom_nodup _ _, hfa⟩, ?_⟩, ?_⟩
  · intro l hl l' hl'
    rcases List.mem_append.1 hl' with hl' | hl'
    · exact sep (b := 70) (by simp) (by simp) l hl l' hl'
    · exact sep (b := 97) (by simp) (by simp [generatedFrom]) l hl l' hl'
  · intro l hl l' hl'
    have hl₀ : l.head? = some 115 ∨ l.head? = some 112 := by
      simp only [List.mem_cons, List.not_mem_nil, or_false] at hl
      rcases hl with rfl | rfl | rfl <;> simp
    have hl₁ : l'.head? = some 71 ∨ l'.head? = some 70 ∨ l'.head? = some 97 := by
      simp only [generatedFrom, List.mem_append, List.mem_map] at hl'
      rcases hl' with ⟨_, -, rfl⟩ | ⟨_, -, rfl⟩ | ⟨_, -, rfl⟩ <;> simp
    rintro rfl
    rcases hl₀ with h | h <;> simp [h] at hl₁

/-- The labels of statements start with a byte of their own. -/
theorem head?_ownLabels {l : Text} (h : l ∈ x.ownLabels) : l.head? ≠ some 76 := by
  simp only [ownLabels, generatedFrom, List.mem_append, List.mem_cons, List.mem_map,
    List.not_mem_nil, or_false] at h
  rcases h with (rfl | rfl | rfl) | ⟨_, -, rfl⟩ | ⟨_, -, rfl⟩ | ⟨_, -, rfl⟩ <;> simp

theorem ownLabels_notMem_user {l : Text} (h : l ∈ x.ownLabels) : l ∉ p.userLabels := by
  intro hu
  simp only [Program.userLabels, List.mem_flatMap, List.mem_map] at hu
  obtain ⟨f, -, n, -, rfl⟩ := hu
  exact x.head?_ownLabels h (Label.head?_user _ _)

theorem names_emissions : (names (x.emissions o)).Perm (x.ownLabels ++ p.userLabels) := by
  have hc := runs_collect x.collected
  obtain ⟨-, hq⟩ := runs_lowerFunctions_names x.generated
  have hpro : names (Compilation.prologue o.effective) = [Label.stackPointer, Label.exit] := rfl
  have hepi : names Compilation.epilogue = [Label.stack] := rfl
  rw [emissions, names_append, names_append, names_append, hpro, hepi, hc.1]
  refine ((hq.append_left _).append_right _).trans ?_
  rw [List.perm_iff_count]
  intro l
  simp only [ownLabels, Program.userLabels, List.count_append, List.count_cons, List.count_nil]
  omega

theorem waiting_emissions : waiting none (x.emissions o) = none := by
  rw [emissions, waiting_append]
  rfl

/-- The labels of the image are the names that were given. -/
theorem labels_image :
    (Listing.emitAll {} (x.emissions o)).image.filterMap Prod.fst = names (x.emissions o) := by
  have h := labels_wordsFrom none (x.emissions o)
  rw [waiting_emissions] at h
  rw [Listing.image_emitAll]
  simpa [Listing.image] using h

/-- Every label but those of statements names at most one word. -/
theorem count_label_image {l : Text} (hl : l.head? ≠ some 76) :
    ((Listing.emitAll {} (x.emissions o)).image.filterMap Prod.fst).count l ≤ 1 := by
  have hu : p.userLabels.count l = 0 := by
    rw [List.count_eq_zero]
    simp only [Program.userLabels, List.mem_flatMap, List.mem_map]
    rintro ⟨f, -, n, -, rfl⟩
    exact hl (Label.head?_user _ _)
  rw [labels_image, (x.names_emissions o).count_eq, List.count_append, hu]
  exact List.nodup_iff_count_le_one.1 x.ownLabels_nodup l

/-- A word with such a label is the first one with it. -/
theorem findIdx?_label {l : Text} (hl : l.head? ≠ some 76) {k : Nat} {i : Instruction}
    (hk : (Listing.emitAll {} (x.emissions o)).image[k]? = some (some l, i)) :
    (Listing.emitAll {} (x.emissions o)).image.findIdx? (fun w => w.1 = some l) = some k := by
  have hc := x.count_label_image o hl
  generalize (Listing.emitAll {} (x.emissions o)).image = ws at hk hc ⊢
  obtain ⟨pre, post, rfl, rfl⟩ : ∃ pre post, ws = pre ++ (some l, i) :: post ∧ pre.length = k := by
    obtain ⟨hlt, hget⟩ := List.getElem?_eq_some_iff.1 hk
    refine ⟨ws.take k, ws.drop (k + 1), ?_, List.length_take_of_le (Nat.le_of_lt hlt)⟩
    rw [← hget, List.getElem_cons_drop, List.take_append_drop]
  have hpre : pre.findIdx? (fun w => w.1 = some l) = none := by
    rw [List.findIdx?_eq_none_iff]
    intro w hw
    simp only [List.filterMap_append, List.filterMap_cons, List.count_append,
      List.count_cons_self] at hc
    have : l ∉ pre.filterMap Prod.fst := List.count_eq_zero.1 (by omega)
    simp only [List.mem_filterMap, not_exists, not_and] at this
    simpa using this w hw
  simp [List.findIdx?_append, List.findIdx?_cons, hpre]

/-- The labels of globals and functions and those that are made up stand in the image. -/
theorem exists_label {l : Text} (hl : l ∈ x.ownLabels) :
    ∃ (k : Nat) (i : Instruction),
      (Listing.emitAll {} (x.emissions o)).image[k]? = some (some l, i) := by
  have hmem : l ∈ (Listing.emitAll {} (x.emissions o)).image.filterMap Prod.fst := by
    rw [labels_image, (x.names_emissions o).mem_iff]
    exact List.mem_append_left _ hl
  obtain ⟨⟨_, i⟩, hw, rfl⟩ := List.mem_filterMap.1 hmem
  obtain ⟨k, hk⟩ := List.mem_iff_getElem?.1 hw
  exact ⟨k, i, hk⟩

end Passes

/-! ### The code of a statement -/

/-- A statement of a program, by what stands around it. -/
structure Site (p : Program) where
  /-- The functions in front of the one with the statement. -/
  earlier : List Function
  /-- The function with the statement. -/
  function : Function
  /-- The functions behind it. -/
  later : List Function
  functions_eq : p.functions = earlier ++ function :: later
  /-- The statements in front of the statement. -/
  before : List Statement
  /-- The statement. -/
  statement : Statement
  /-- The statements behind it. -/
  after : List Statement
  body_eq : function.body = before ++ statement :: after

namespace Site

variable {p : Program} (x : Site p) (o : Options)

/-- What the statement can refer to. -/
def scope : Scope := .ofFunction (collect p {}).state x.function

/-- All that is emitted up to the point where the first statements `sts` of the function have been
lowered. -/
def emittedBy (sts : List Statement) : List Emission :=
  let earlier := lowerFunctions (collect p {}).state x.earlier 0
  Compilation.prologue o.effective ++ (collect p {}).emissions ++ earlier.emissions
    ++ functionHead x.function ++ (lowerBody x.scope 1 false sts earlier.state).emissions

/-- The number of words in front of the code of the statement. -/
def start : Nat := (Listing.emitAll {} (x.emittedBy o x.before)).words

/-- The number of words up to the end of the code of the statement. -/
def stop : Nat := (Listing.emitAll {} (x.emittedBy o (x.before ++ [x.statement]))).words

/-- **The code of a statement stands between `start` and `stop`.** -/
theorem placed (h : (compile p o).fault = none) :
    ∃ n es t w pre post, Lowered x.scope x.statement n es t ∧
      (compile p o).listing.image = pre ++ wordsFrom w es ++ post ∧
      pre.length = x.start o ∧ pre.length + (wordsFrom w es).length = x.stop o := by
  obtain ⟨y, hy⟩ := compile_emissions h
  have hc := y.collected
  have hg := y.generated
  rw [x.functions_eq, runs_lowerFunctions_append] at hg
  obtain ⟨es₁, m, _, he, hl, hcode⟩ := hg
  rw [lowerFunctions, runs_bind] at hl
  obtain ⟨_, _, _, es₃, hf, -, rfl⟩ := hl
  obtain ⟨body, hb, rfl⟩ := runs_lowerFunction.1 hf
  rw [x.body_eq] at hb
  obtain ⟨bs, n, b, es, t, cs, hbs, hst, hbst, rfl⟩ := runs_lowerBody_append hb
  have hsc : x.scope = .ofFunction y.symbols x.function := by rw [scope, hc.state]
  rw [← hsc] at hbs hst hbst
  -- what is emitted in front of the statement, and with it
  have hstart : x.emittedBy o x.before = Compilation.prologue o.effective ++ y.data ++ es₁
      ++ functionHead x.function ++ bs := by
    simp only [emittedBy, hc.emissions, hc.state, he.emissions, he.state, hbs.emissions]
  have hstop :
      x.emittedBy o (x.before ++ [x.statement]) = x.emittedBy o x.before ++ gap b ++ es := by
    rw [hstart]
    simp only [emittedBy, hc.emissions, hc.state, he.emissions, he.state, hbst.emissions,
      List.append_assoc]
  have hall : y.emissions o = x.emittedBy o x.before ++ gap b ++ es ++
      (cs ++ functionTail x.function ++ es₃ ++ Compilation.epilogue) := by
    rw [Passes.emissions, hcode, hstart]
    simp only [List.append_assoc]
  have hgap : ∀ w, wordsFrom w (gap b) = [] ∧ waiting w (gap b) = w := by
    intro w; cases b <;> exact ⟨rfl, rfl⟩
  refine ⟨n, es, t, waiting none (x.emittedBy o x.before), wordsFrom none (x.emittedBy o x.before),
    wordsFrom (waiting none (x.emittedBy o x.before ++ gap b ++ es))
      (cs ++ functionTail x.function ++ es₃ ++ Compilation.epilogue), hst, ?_, ?_, ?_⟩
  · rw [hy, hall, Listing.image_emitAll, wordsFrom_append, wordsFrom_append, wordsFrom_append,
      waiting_append none _ (gap b), (hgap _).1, (hgap _).2]
    simp [Listing.image]
  · rw [start, Listing.words_eq_length_image, Listing.image_emitAll]
    simp [Listing.image]
  · rw [stop, hstop, Listing.words_eq_length_image, Listing.image_emitAll, wordsFrom_append,
      wordsFrom_append, waiting_append none _ (gap b), (hgap _).1, (hgap _).2]
    simp [Listing.image]

theorem stop_le (h : (compile p o).fault = none) :
    x.stop o ≤ (compile p o).listing.image.length := by
  obtain ⟨_, es, _, w, pre, post, -, himg, -, hstop⟩ := x.placed o h
  rw [himg, ← hstop, List.length_append, List.length_append]
  omega

end Site

end StumpGen
