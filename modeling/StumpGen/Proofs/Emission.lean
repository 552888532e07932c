import StumpGen.Assembly.Emitter
import Mathlib.Data.List.Basic

/-!
# Emissions and the words they make

Code generation is a computation that emits (`Emitter`) and a listing is what is left of the
emissions.  This file has both views in the form that the later proofs use:

* `Emitter.Runs` : a computation succeeds, with what it emits, the state it leaves and its result;
  `Emitter.runs_bind` and its companions take a composed computation apart.  `Emitter.Fails` is the
  same for a computation that fails.
* `linesFrom` and `waiting` : the lines that emissions add to a listing and the label that waits
  after them, as functions of the label that waits before them.
* `labels_wordsFrom` : the labels in front of the words are the names that were emitted, in order,
  whatever nops were put in between.
-/

namespace StumpGen.Assembly

/-! ### Successful code generation -/

namespace Emitter

variable {ε ε' σ α β : Type}

/-- From the state `s` the computation `x` emits `es`, leaves the state `t` and gives `a`. -/
structure Runs (x : Emitter ε σ α) (s : σ) (es : List Emission) (t : σ) (a : α) : Prop where
  /-- What is emitted. -/
  emissions : (x s).emissions = es
  /-- The state that is left. -/
  state : (x s).state = t
  /-- The result. -/
  result : (x s).result = .ok a

variable {s t : σ} {es : List Emission}

theorem bind_of_ok {x : Emitter ε σ α} {a : α} (h : (x s).result = .ok a)
    (f : α → Emitter ε σ β) :
    (x >>= f) s = {
      emissions := (x s).emissions ++ (f a (x s).state).emissions
      state := (f a (x s).state).state
      result := (f a (x s).state).result
      calls := (x s).calls ++ (f a (x s).state).calls } := by
  change Emitter.bind x f s = _
  simp only [Emitter.bind, h]

theorem bind_of_error {x : Emitter ε σ α} {e : ε} (h : (x s).result = .error e)
    (f : α → Emitter ε σ β) :
    (x >>= f) s = {
      emissions := (x s).emissions
      state := (x s).state
      result := .error e
      calls := (x s).calls } := by
  change Emitter.bind x f s = _
  simp only [Emitter.bind, h]

@[simp] theorem runs_pure {a b : α} :
    Runs (pure b : Emitter ε σ α) s es t a ↔ es = [] ∧ t = s ∧ a = b := by
  constructor
  · rintro ⟨rfl, rfl, h⟩
    exact ⟨rfl, rfl, (Except.ok.inj h).symm⟩
  · rintro ⟨rfl, rfl, rfl⟩
    exact ⟨rfl, rfl, rfl⟩

theorem runs_bind {x : Emitter ε σ α} {f : α → Emitter ε σ β} {b : β} :
    Runs (x >>= f) s es t b ↔
      ∃ es₁ u a es₂, Runs x s es₁ u a ∧ Runs (f a) u es₂ t b ∧ es = es₁ ++ es₂ := by
  constructor
  · intro h
    cases hx : (x s).result with
    | error e =>
      have hb := h.result
      rw [bind_of_error hx] at hb
      cases hb
    | ok a =>
      obtain ⟨hes, ht, hb⟩ := h
      rw [bind_of_ok hx] at hes ht hb
      exact ⟨_, _, a, _, ⟨rfl, rfl, hx⟩, ⟨rfl, ht, hb⟩, hes.symm⟩
  · rintro ⟨_, _, a, _, ⟨rfl, rfl, hx⟩, ⟨rfl, rfl, hf⟩, rfl⟩
    constructor <;> rw [bind_of_ok hx]
    exact hf

@[simp] theorem runs_emitAll {fs : List Emission} {a : Unit} :
    Runs (emitAll fs : Emitter ε σ Unit) s es t a ↔ es = fs ∧ t = s := by
  constructor
  · rintro ⟨rfl, rfl, -⟩
    exact ⟨rfl, rfl⟩
  · rintro ⟨rfl, rfl⟩
    exact ⟨rfl, rfl, rfl⟩

theorem runs_emitAll_bind {fs : List Emission} {f : Unit → Emitter ε σ β} {b : β} :
    Runs (emitAll fs >>= f) s es t b ↔ ∃ es', Runs (f ()) s es' t b ∧ es = fs ++ es' := by
  rw [runs_bind]
  constructor
  · rintro ⟨_, _, _, es', h, hf, rfl⟩
    obtain ⟨rfl, rfl⟩ := runs_emitAll.1 h
    exact ⟨es', hf, rfl⟩
  · rintro ⟨es', hf, rfl⟩
    exact ⟨fs, s, (), es', runs_emitAll.2 ⟨rfl, rfl⟩, hf, rfl⟩

@[simp] theorem runs_code {i : Instruction} {a : Unit} :
    Runs (code i : Emitter ε σ Unit) s es t a ↔ es = [.code i] ∧ t = s := runs_emitAll

@[simp] theorem runs_codes {is : List Instruction} {a : Unit} :
    Runs (codes is : Emitter ε σ Unit) s es t a ↔ es = is.map .code ∧ t = s := runs_emitAll

@[simp] theorem runs_label {n : Text} {a : Unit} :
    Runs (label n : Emitter ε σ Unit) s es t a ↔ es = [.label n] ∧ t = s := runs_emitAll

@[simp] theorem runs_comment {c : Text} {a : Unit} :
    Runs (comment c : Emitter ε σ Unit) s es t a ↔ es = [.comment c] ∧ t = s := runs_emitAll

theorem runs_code_bind {i : Instruction} {f : Unit → Emitter ε σ β} {b : β} :
    Runs (code i >>= f) s es t b ↔ ∃ es', Runs (f ()) s es' t b ∧ es = .code i :: es' :=
  runs_emitAll_bind

theorem runs_codes_bind {is : List Instruction} {f : Unit → Emitter ε σ β} {b : β} :
    Runs (codes is >>= f) s es t b ↔ ∃ es', Runs (f ()) s es' t b ∧ es = is.map .code ++ es' :=
  runs_emitAll_bind

theorem runs_label_bind {n : Text} {f : Unit → Emitter ε σ β} {b : β} :
    Runs (label n >>= f) s es t b ↔ ∃ es', Runs (f ()) s es' t b ∧ es = .label n :: es' :=
  runs_emitAll_bind

theorem runs_comment_bind {c : Text} {f : Unit → Emitter ε σ β} {b : β} :
    Runs (comment c >>= f) s es t b ↔ ∃ es', Runs (f ()) s es' t b ∧ es = .comment c :: es' :=
  runs_emitAll_bind

@[simp] theorem runs_fail {e : ε} {a : α} : ¬ Runs (fail e : Emitter ε σ α) s es t a := by
  rintro ⟨-, -, h⟩
  cases h

@[simp] theorem runs_trace {c : Trace.Call} {a : Unit} :
    Runs (trace c : Emitter ε σ Unit) s es t a ↔ es = [] ∧ t = s := by
  constructor
  · rintro ⟨rfl, rfl, -⟩
    exact ⟨rfl, rfl⟩
  · rintro ⟨rfl, rfl⟩
    exact ⟨rfl, rfl, rfl⟩

theorem runs_trace_bind {c : Trace.Call} {f : Unit → Emitter ε σ β} {b : β} :
    Runs (trace c >>= f) s es t b ↔ Runs (f ()) s es t b := by
  rw [runs_bind]
  constructor
  · rintro ⟨_, _, _, es', h, hf, rfl⟩
    obtain ⟨rfl, rfl⟩ := runs_trace.1 h
    exact hf
  · intro hf
    exact ⟨[], s, (), es, runs_trace.2 ⟨rfl, rfl⟩, hf, rfl⟩

@[simp] theorem runs_ofExcept {r : Except ε α} {a : α} :
    Runs (ofExcept r : Emitter ε σ α) s es t a ↔ r = .ok a ∧ es = [] ∧ t = s := by
  constructor
  · rintro ⟨rfl, rfl, h⟩; exact ⟨h, rfl, rfl⟩
  · rintro ⟨h, rfl, rfl⟩; exact ⟨rfl, rfl, h⟩

@[simp] theorem runs_getState {a : σ} :
    Runs (getState : Emitter ε σ σ) s es t a ↔ a = s ∧ es = [] ∧ t = s := by
  constructor
  · rintro ⟨rfl, rfl, h⟩; exact ⟨(Except.ok.inj h).symm, rfl, rfl⟩
  · rintro ⟨rfl, rfl, rfl⟩; exact ⟨rfl, rfl, rfl⟩

@[simp] theorem runs_setState {u : σ} {a : Unit} :
    Runs (setState u : Emitter ε σ Unit) s es t a ↔ es = [] ∧ t = u := by
  constructor
  · rintro ⟨rfl, rfl, -⟩; exact ⟨rfl, rfl⟩
  · rintro ⟨rfl, rfl⟩; exact ⟨rfl, rfl, rfl⟩

@[simp] theorem runs_mapError {x : Emitter ε σ α} {f : ε → ε'} {a : α} :
    Runs (x.mapError f) s es t a ↔ Runs x s es t a := by
  have hresult : (x.mapError f s).result = .ok a ↔ (x s).result = .ok a := by
    simp only [mapError]
    cases (x s).result <;> simp [Except.mapError]
  constructor
  · rintro ⟨rfl, rfl, h⟩; exact ⟨rfl, rfl, hresult.1 h⟩
  · rintro ⟨rfl, rfl, h⟩; exact ⟨rfl, rfl, hresult.2 h⟩

/-! ### Code generation that fails -/

/-- From the state `s` the computation `x` fails with `e`. -/
def Fails (x : Emitter ε σ α) (s : σ) (e : ε) : Prop := (x s).result = .error e

theorem runs_of_result {x : Emitter ε σ α} {a : α} (h : (x s).result = .ok a) :
    Runs x s (x s).emissions (x s).state a := ⟨rfl, rfl, h⟩

theorem Runs.not_fails {x : Emitter ε σ α} {a : α} (h : Runs x s es t a) (e : ε) :
    ¬ Fails x s e := by
  rw [Fails, h.result]
  simp

theorem fails_bind {x : Emitter ε σ α} {f : α → Emitter ε σ β} {e : ε} :
    Fails (x >>= f) s e ↔ Fails x s e ∨ ∃ es u a, Runs x s es u a ∧ Fails (f a) u e := by
  cases hx : (x s).result with
  | error e' =>
    rw [Fails, Fails, bind_of_error hx, hx]
    constructor
    · intro h
      exact .inl (congrArg _ (Except.error.inj h))
    · rintro (h | ⟨_, _, _, h, -⟩)
      · exact congrArg _ (Except.error.inj h)
      · cases hx.symm.trans h.result
  | ok a =>
    rw [Fails, Fails, bind_of_ok hx, hx]
    constructor
    · intro h
      exact .inr ⟨_, _, a, runs_of_result hx, h⟩
    · rintro (h | ⟨_, _, _, ⟨rfl, rfl, ha⟩, h⟩)
      · cases h
      · obtain rfl := Except.ok.inj (hx.symm.trans ha)
        exact h

theorem fails_emitAll_bind {fs : List Emission} {f : Unit → Emitter ε σ β} {e : ε} :
    Fails (emitAll fs >>= f) s e ↔ Fails (f ()) s e := by
  rw [fails_bind]
  constructor
  · rintro (h | ⟨_, _, _, h, hf⟩)
    · cases h
    · obtain ⟨-, rfl⟩ := runs_emitAll.1 h
      exact hf
  · intro h; exact .inr ⟨fs, s, (), runs_emitAll.2 ⟨rfl, rfl⟩, h⟩

theorem fails_trace_bind {c : Trace.Call} {f : Unit → Emitter ε σ β} {e : ε} :
    Fails (trace c >>= f) s e ↔ Fails (f ()) s e := by
  rw [Fails, bind_of_ok rfl]
  rfl

theorem fails_mapError {x : Emitter ε σ α} {f : ε → ε'} {e : ε'} :
    Fails (x.mapError f) s e ↔ ∃ e', Fails x s e' ∧ f e' = e := by
  simp only [Fails, mapError]
  cases (x s).result <;> simp [Except.mapError]

end Emitter

/-! ### Lines -/

/-- The name that an emission gives to the next word.  An empty name is no label. -/
def Emission.name? : Emission → Option Text
  | .label n => if n.isEmpty then none else some n
  | _ => none

/-- The names that are given by emissions. -/
def names (es : List Emission) : List Text := es.filterMap Emission.name?

/-- The word of the image that a line stands for, with its label. -/
def Line.word? : Line → Option (Option Text × Instruction)
  | .code l i => some (l, i)
  | _ => none

/-- The lines that emissions add while the label `p` waits. -/
def linesFrom (p : Option Text) : List Emission → List Line
  | [] => []
  | .label n :: es =>
    p.toList.map (fun l => .code (some l) .nop)
      ++ linesFrom (if n.isEmpty then none else some n) es
  | .code i :: es => .code p i :: linesFrom none es
  | .comment t :: es => .comment t :: linesFrom p es
  | .blank :: es => .blank :: linesFrom p es
  | .origin t :: es => .origin t :: linesFrom p es

/-- The label that waits after emissions if `p` waits before them. -/
def waiting (p : Option Text) : List Emission → Option Text
  | [] => p
  | .label n :: es => waiting (if n.isEmpty then none else some n) es
  | .code _ :: es => waiting none es
  | .comment _ :: es => waiting p es
  | .blank :: es => waiting p es
  | .origin _ :: es => waiting p es

/-- The words that emissions add while the label `p` waits. -/
def wordsFrom (p : Option Text) (es : List Emission) : List (Option Text × Instruction) :=
  (linesFrom p es).filterMap Line.word?

section Words

variable (p : Option Text) (es : List Emission)

@[simp] theorem wordsFrom_nil : wordsFrom p [] = [] := rfl

@[simp] theorem wordsFrom_label (n : Text) :
    wordsFrom p (.label n :: es) = p.toList.map (fun l => (some l, .nop))
      ++ wordsFrom (if n.isEmpty then none else some n) es := by
  cases p <;> rfl

@[simp] theorem wordsFrom_code (i : Instruction) :
    wordsFrom p (.code i :: es) = (p, i) :: wordsFrom none es := rfl

@[simp] theorem wordsFrom_comment (t : Text) :
    wordsFrom p (.comment t :: es) = wordsFrom p es := rfl

@[simp] theorem wordsFrom_blank : wordsFrom p (.blank :: es) = wordsFrom p es := rfl

@[simp] theorem wordsFrom_origin (t : Text) :
    wordsFrom p (.origin t :: es) = wordsFrom p es := rfl

theorem wordsFrom_map_code (is : List Instruction) :
    wordsFrom none (is.map .code) = is.map fun i => (none, i) := by
  induction is with
  | nil => rfl
  | cons i is ih => rw [List.map_cons, wordsFrom_code, ih, List.map_cons]

theorem waiting_map_code (is : List Instruction) : waiting none (is.map .code) = none := by
  induction is with
  | nil => rfl
  | cons i is ih => exact ih

@[simp] theorem names_nil : names [] = [] := rfl

@[simp] theorem names_label (n : Text) :
    names (.label n :: es) = (if n.isEmpty then [] else [n]) ++ names es := by
  by_cases hn : n.isEmpty <;> simp [names, Emission.name?, hn]

@[simp] theorem names_code (i : Instruction) : names (.code i :: es) = names es := rfl

@[simp] theorem names_comment (t : Text) : names (.comment t :: es) = names es := rfl

@[simp] theorem names_blank : names (.blank :: es) = names es := rfl

@[simp] theorem names_origin (t : Text) : names (.origin t :: es) = names es := rfl

end Words

theorem names_append (es fs : List Emission) : names (es ++ fs) = names es ++ names fs :=
  List.filterMap_append

theorem linesFrom_append (p : Option Text) (es fs : List Emission) :
    linesFrom p (es ++ fs) = linesFrom p es ++ linesFrom (waiting p es) fs := by
  induction es generalizing p with
  | nil => rfl
  | cons e es ih => cases e <;> simp [linesFrom, waiting, ih]

theorem waiting_append (p : Option Text) (es fs : List Emission) :
    waiting p (es ++ fs) = waiting (waiting p es) fs := by
  induction es generalizing p with
  | nil => rfl
  | cons e es ih => cases e <;> exact ih _

theorem wordsFrom_append (p : Option Text) (es fs : List Emission) :
    wordsFrom p (es ++ fs) = wordsFrom p es ++ wordsFrom (waiting p es) fs := by
  simp only [wordsFrom, linesFrom_append, List.filterMap_append]

/-- The labels of the words and the one that still waits are the names that were given. -/
theorem labels_wordsFrom (p : Option Text) (es : List Emission) :
    (wordsFrom p es).filterMap Prod.fst ++ (waiting p es).toList = p.toList ++ names es := by
  induction es generalizing p with
  | nil => simp [waiting]
  | cons e es ih =>
    cases e with
    | label n =>
      have h := ih (if n.isEmpty then none else some n)
      cases p <;> by_cases hn : n.isEmpty <;> simp_all [waiting]
    | code i =>
      have h := ih none
      cases p <;> simp_all [waiting]
    | comment t => simpa [waiting] using ih p
    | blank => simpa [waiting] using ih p
    | origin t => simpa [waiting] using ih p

namespace Listing

/-- The words of a listing with their labels. -/
def image (l : Listing) : List (Option Text × Instruction) := l.lines.toList.filterMap Line.word?

theorem lines_emitAll (l : Listing) (es : List Emission) :
    (l.emitAll es).lines.toList = l.lines.toList ++ linesFrom l.pending es ∧
      (l.emitAll es).pending = waiting l.pending es := by
  induction es generalizing l with
  | nil => simp [emitAll, linesFrom, waiting]
  | cons e es ih =>
    obtain ⟨h₁, h₂⟩ := ih (l.emit e)
    have he : l.emitAll (e :: es) = (l.emit e).emitAll es := rfl
    rw [he, h₁, h₂]
    cases e with
    | label n => cases hp : l.pending <;> simp [emit, label, code, hp, linesFrom, waiting]
    | _ => simp [emit, code, linesFrom, waiting]

theorem image_emitAll (l : Listing) (es : List Emission) :
    (l.emitAll es).image = l.image ++ wordsFrom l.pending es := by
  simp [image, (lines_emitAll l es).1, wordsFrom]

theorem emitAll_append (l : Listing) (es fs : List Emission) :
    l.emitAll (es ++ fs) = (l.emitAll es).emitAll fs :=
  List.foldl_append

theorem words_eq_length_image (l : Listing) : l.words = l.image.length := by
  rw [words, image, ← Array.countP_toList]
  induction l.lines.toList with
  | nil => rfl
  | cons x xs ih =>
    cases x with
    | code p i => simp [List.countP_cons, Line.isCode, Line.word?, ih]
    | comment t => exact ih
    | blank => exact ih
    | origin t => exact ih

end Listing

end StumpGen.Assembly
