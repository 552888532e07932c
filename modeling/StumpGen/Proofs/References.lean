import StumpGen.Proofs.Layout

/-!
# Labels that are used are defined

An instruction refers to at most one label.  A piece of lowered code refers to the labels that it
makes up, to globals and functions that the program declares, and to the labels that its statements
jump to, and to nothing else (`Refers`).  Such pieces can be put one behind the other, so the same
holds of statements, bodies, functions and whole programs.

* `Lowered.refers` : what a lowered statement refers to.
* `Passes.mem_references` : what a program refers to.
* `references_closed` : **the references that lead nowhere** are an entry function that is not
  declared and jumps to labels that their function does not mark; labels that are made up are
  defined once and used, and no jump of one function meets a label of another.
-/

namespace StumpGen

namespace Assembly

/-! ### References -/

/-- The label that an instruction refers to. -/
def Instruction.reference? : Instruction → Option Text
  | .dataLabel l | .movLabel _ l | .loadLabel _ l | .storeLabel _ l | .branch _ l => some l
  | _ => none

/-- The label that an emission refers to. -/
def Emission.reference? : Emission → Option Text
  | .code i => i.reference?
  | _ => none

/-- The labels that emissions refer to. -/
def references (es : List Emission) : List Text := es.filterMap Emission.reference?

@[simp] theorem references_nil : references [] = [] := rfl

theorem references_cons (e : Emission) (es : List Emission) :
    references (e :: es) = e.reference?.toList ++ references es := by
  cases h : e.reference? <;> simp [references, h]

theorem references_append (es fs : List Emission) :
    references (es ++ fs) = references es ++ references fs :=
  List.filterMap_append

/-- The nops that are put under labels refer to nothing. -/
theorem references_wordsFrom (p : Option Text) (es : List Emission) :
    (wordsFrom p es).filterMap (fun w => w.2.reference?) = references es := by
  induction es generalizing p with
  | nil => rfl
  | cons e es ih =>
    rw [references_cons]
    cases e with
    | label n =>
      rw [wordsFrom_label, List.filterMap_append, ih]
      cases p <;> rfl
    | code i =>
      rw [wordsFrom_code, List.filterMap_cons, ih]
      cases h : i.reference? <;> simp [Emission.reference?, h]
    | comment t => exact ih p
    | blank => exact ih p
    | origin t => exact ih p

namespace Listing

/-- The labels that the lines of a listing define. -/
def labels (l : Listing) : List Text := l.image.filterMap Prod.fst

/-- The labels that the lines of a listing use as operands. -/
def references (l : Listing) : List Text := l.image.filterMap fun w => w.2.reference?

theorem references_emitAll (es : List Emission) :
    (Listing.emitAll {} es).references = Assembly.references es := by
  rw [references, image_emitAll]
  simpa [image] using references_wordsFrom none es

end Listing

end Assembly

open Assembly Lowering

/-- The labels that a statement jumps to. -/
def Statement.targets : Statement → List Text
  | .goto l | .gotoCond _ l => [l]
  | _ => []

/-- The labels that a function jumps to. -/
def Function.targets (f : Function) : List Text := f.body.flatMap Statement.targets

namespace Lowering

open Emitter

/-- Whether a label is that of a declared global or function. -/
def Symbols.Declares (s : Symbols) (l : Text) : Prop :=
  (∃ name, s.isGlobal name = true ∧ l = Label.global name) ∨
    ∃ name k, s.arity? name = some k ∧ l = Label.function name

/-! ### Pieces of code -/

/-- The emissions `es` make up the labels from `n` up to `t`, jump to the labels `ts`, and refer to
all of these and otherwise to declared globals and functions only. -/
structure Refers (s : Symbols) (ts : List Text) (n t : Nat) (es : List Emission) : Prop where
  le : n ≤ t
  only : ∀ l ∈ references es,
    (∃ k, n ≤ k ∧ k < t ∧ l = Label.generated k) ∨ l ∈ ts ∨ s.Declares l
  generated : ∀ k, n ≤ k → k < t → Label.generated k ∈ references es
  targets : ∀ l ∈ ts, l ∈ references es

namespace Refers

variable {s : Symbols} {ts us : List Text} {n m t : Nat} {es fs : List Emission}

/-- Emissions without a reference. -/
theorem of_references_eq_nil (h : references es = []) : Refers s [] n n es where
  le := Nat.le_refl n
  only := by simp [h]
  generated := by omega
  targets := by simp

/-- **Pieces one behind the other.** -/
theorem append (h : Refers s ts n m es) (h' : Refers s us m t fs) :
    Refers s (ts ++ us) n t (es ++ fs) where
  le := Nat.le_trans h.le h'.le
  only := by
    intro l hl
    have hle := h.le
    have hle' := h'.le
    rw [references_append, List.mem_append] at hl
    rw [List.mem_append]
    rcases hl with hl | hl
    · rcases h.only l hl with ⟨k, hk, hk', rfl⟩ | ht | hd
      exacts [.inl ⟨k, hk, by omega, rfl⟩, .inr (.inl (.inl ht)), .inr (.inr hd)]
    · rcases h'.only l hl with ⟨k, hk, hk', rfl⟩ | ht | hd
      exacts [.inl ⟨k, by omega, hk', rfl⟩, .inr (.inl (.inr ht)), .inr (.inr hd)]
  generated := by
    intro k hn ht
    rw [references_append, List.mem_append]
    by_cases hk : k < m
    · exact .inl (h.generated k hn hk)
    · exact .inr (h'.generated k (by omega) ht)
  targets := by
    intro l hl
    rw [references_append, List.mem_append]
    exact (List.mem_append.1 hl).imp (h.targets l) (h'.targets l)

/-- Emissions without a reference in front. -/
theorem after (hes : references es = []) (h : Refers s ts n t fs) : Refers s ts n t (es ++ fs) :=
  (of_references_eq_nil hes).append h

/-- An emission without a reference in front. -/
theorem cons {e : Emission} (he : references [e] = []) (h : Refers s ts n t fs) :
    Refers s ts n t (e :: fs) :=
  h.after he

/-- Emissions without a reference behind. -/
theorem before (h : Refers s ts n t es) (hfs : references fs = []) :
    Refers s ts n t (es ++ fs) := by
  simpa using h.append (of_references_eq_nil hfs)

/-- A jump to a label. -/
theorem branch (s : Symbols) (n : Nat) (c l : Text) : Refers s [l] n n [.code (.branch c l)] where
  le := Nat.le_refl n
  only := fun _ hl => .inr (.inl hl)
  generated := by omega
  targets := fun _ hl => hl

end Refers

section Pieces

variable {s : Symbols} {n : Nat}

theorem references_map_code {is : List Instruction} (h : ∀ i ∈ is, i.reference? = none) :
    references (is.map .code) = [] := by
  simpa [references, List.filterMap_eq_nil_iff, Emission.reference?] using h

theorem references_embedding (dest : Reg) (word : Instruction) (n : Nat) :
    references (embedding dest word n) =
      Label.generated n :: (word.reference?.toList ++ [Label.generated (n + 1)]) := by
  simp only [embedding, references_cons]
  rfl

/-- A word that is embedded may refer to a declared label. -/
theorem refers_embedding {word : Instruction} (h : ∀ l, word.reference? = some l → s.Declares l)
    (dest : Reg) : Refers s [] n (n + 2) (embedding dest word n) where
  le := by omega
  only := by
    intro l hl
    simp only [references_embedding, List.mem_cons, List.mem_append, Option.mem_toList,
      List.not_mem_nil, or_false] at hl
    rcases hl with rfl | hl | rfl
    · exact .inl ⟨n, by omega, by omega, rfl⟩
    · exact .inr (.inr (h l hl))
    · exact .inl ⟨n + 1, by omega, by omega, rfl⟩
  generated := by
    intro k hn ht
    obtain rfl | rfl : k = n ∨ k = n + 1 := by omega
    all_goals simp [references_embedding]
  targets := by simp

theorem refers_embedding_global {name : Text} (h : s.isGlobal name = true) (dest : Reg) :
    Refers s [] n (n + 2) (embedding dest (.dataLabel (Label.global name)) n) := by
  refine refers_embedding (fun l hl => ?_) dest
  obtain rfl := Option.some.inj hl
  exact .inl ⟨name, h, rfl⟩

theorem refers_embedding_data (v : Int) (dest : Reg) :
    Refers s [] n (n + 2) (embedding dest (.data v) n) :=
  refers_embedding (by simp [Instruction.reference?]) dest

theorem refers_storing {name : Text} (h : s.isGlobal name = true) (src : Reg) :
    Refers s [] n (n + 3) (storing name src n) := by
  have hr : references (storing name src n) = [Label.generated n, Label.global name,
    Label.generated (n + 2), Label.generated (n + 1), Label.generated (n + 2)] := rfl
  refine ⟨by omega, ?_, ?_, by simp⟩
  · simp only [hr, List.forall_mem_cons]
    exact ⟨.inl ⟨n, by omega, by omega, rfl⟩, .inr (.inr (.inl ⟨name, h, rfl⟩)),
      .inl ⟨n + 2, by omega, by omega, rfl⟩, .inl ⟨n + 1, by omega, by omega, rfl⟩,
      .inl ⟨n + 2, by omega, by omega, rfl⟩, by simp⟩
  · intro k hn ht
    obtain rfl | rfl | rfl : k = n ∨ k = n + 1 ∨ k = n + 2 := by omega
    all_goals simp [hr]

theorem refers_entering {callee : Text} {k : Nat} (h : s.arity? callee = some k) :
    Refers s [] n (n + 3) (entering callee n) := by
  have hr : references (entering callee n) = [Label.generated (n + 2), Label.generated n,
    Label.function callee, Label.generated (n + 1)] := rfl
  refine ⟨by omega, ?_, ?_, by simp⟩
  · simp only [hr, List.forall_mem_cons]
    exact ⟨.inl ⟨n + 2, by omega, by omega, rfl⟩, .inl ⟨n, by omega, by omega, rfl⟩,
      .inr (.inr (.inr ⟨callee, k, h, rfl⟩)), .inl ⟨n + 1, by omega, by omega, rfl⟩, by simp⟩
  · intro k hn ht
    obtain rfl | rfl | rfl : k = n ∨ k = n + 1 ∨ k = n + 2 := by omega
    all_goals simp [hr]

theorem references_restoring (n : Nat) (out : Option Reg) : references (restoring n out) = [] := by
  rw [restoring, List.cons_append, references_cons, references_append]
  simp [references, List.filterMap_eq_nil_iff, Emission.reference?, Instruction.loadSlot,
    Instruction.addImm, Instruction.reference?]

theorem references_doublings (dest src : Reg) (k : Nat) :
    references ((doublings dest src k).map .code) = [] := by
  apply references_map_code
  cases k with
  | zero => simp [doublings, Instruction.move, Instruction.reference?]
  | succ k =>
    simp only [doublings, List.forall_mem_cons, List.mem_replicate]
    refine ⟨rfl, ?_⟩
    rintro i ⟨-, rfl⟩
    rfl

end Pieces

/-! ### Statements -/

section Statements

variable {sc : Scope} {n t : Nat} {es : List Emission}

theorem Loaded.refers {a : Argument} (h : Loaded sc a n es t) : Refers sc.symbols [] n t es := by
  cases h with
  | global h => exact (refers_embedding_global h .r1).before rfl
  | slot h => exact .of_references_eq_nil rfl
  | small h hv => exact .of_references_eq_nil rfl
  | wide h hv hw => exact refers_embedding_data _ .r1
  | register h hr => exact .of_references_eq_nil rfl

theorem Passed.refers {k : Nat} {args : List Argument} (h : Passed sc k args n es t) :
    Refers sc.symbols [] n t es := by
  induction h with
  | nil => exact .of_references_eq_nil rfl
  | cons ha _ ih =>
    -- the word that stores the argument refers to nothing
    exact ha.refers.append (ih.cons rfl)

/-- **What a lowered statement refers to.** -/
theorem Lowered.refers {st : Statement} (h : Lowered sc st n es t) :
    Refers sc.symbols (st.targets.map (Label.user sc.function)) n t es := by
  cases h with
  | goto => exact .branch _ _ _ _
  | gotoCond h => exact .branch _ _ _ _
  | loadGlobal hd h => exact ((refers_embedding_global h _).before rfl).cons rfl
  | addrGlobal hd h => exact (refers_embedding_global h _).cons rfl
  | storeGlobal hs h => exact (refers_storing h _).cons rfl
  | setWide hd h hv hw => exact (refers_embedding_data _ _).cons rfl
  | shiftLeft hd hs h hk =>
    refine .of_references_eq_nil ?_
    rw [references_cons, references_doublings]
    rfl
  | @call callee args out _ _ t hc ha =>
    have hremark : references (argumentsRemark args) = [] := by
      unfold argumentsRemark
      split <;> rfl
    have hcalling : references ([.comment ("Calling function " ++ callee),
        .comment "Saving registers"] ++ saving sc.frame.length) = [] := rfl
    have hrestoring : references ([.comment "Restoring registers", .label (Label.generated (t + 1))]
        ++ restoring sc.frame.length (keptReg out)) = [] := by
      rw [references_append, references_restoring]
      rfl
    have henter := (refers_entering (n := t) hc.arity).cons (e := .comment "Jumping") rfl
    have hall := (((ha.refers.after hremark).append henter).after hcalling).before hrestoring
    simpa [Statement.targets] using hall
  | _ => exact .of_references_eq_nil rfl

end Statements

/-! ### Bodies and functions -/

variable {s : Symbols} {n t : Nat} {es : List Emission} {u : Unit}

theorem references_gap (a : Bool) : references (gap a) = [] := by cases a <;> rfl

theorem runs_lowerBody_refers {sc : Scope} {k : Nat} {a : Bool} {sts : List Statement}
    (h : Runs (lowerBody sc k a sts) n es t u) :
    Refers sc.symbols ((sts.flatMap Statement.targets).map (Label.user sc.function)) n t es := by
  induction sts generalizing k a n es with
  | nil =>
    obtain ⟨rfl, rfl⟩ := runs_lowerBody_nil.1 h
    exact .of_references_eq_nil rfl
  | cons st sts ih =>
    obtain ⟨es₁, m, es₂, h₁, h₂, rfl⟩ := runs_lowerBody_cons.1 h
    rw [List.flatMap_cons, List.map_append]
    exact (h₁.refers.after (references_gap a)).append (ih h₂)

theorem runs_lowerFunction_refers {f : Function} (h : Runs (lowerFunction s f) n es t u) :
    Refers s (f.targets.map (Label.user f.name)) n t es := by
  obtain ⟨body, hb, rfl⟩ := runs_lowerFunction.1 h
  exact ((runs_lowerBody_refers hb).after rfl).before rfl

theorem runs_lowerFunctions_refers {fs : List Function}
    (h : Runs (lowerFunctions s fs) n es t u) :
    Refers s (fs.flatMap fun f => f.targets.map (Label.user f.name)) n t es := by
  induction fs generalizing n es with
  | nil =>
    simp only [lowerFunctions, runs_pure] at h
    obtain ⟨rfl, rfl, -⟩ := h
    exact .of_references_eq_nil rfl
  | cons f fs ih =>
    simp only [lowerFunctions, runs_bind] at h
    obtain ⟨es₁, m, _, es₂, h₁, h₂, rfl⟩ := h
    exact (runs_lowerFunction_refers h₁).append (ih h₂)

/-- The labels that a function defines. -/
theorem runs_lowerFunction_names {f : Function} (h : Runs (lowerFunction s f) n es t u) :
    (names es).Perm (Label.function f.name :: (generatedFrom n t
      ++ f.labels.map (Label.user f.name))) := by
  obtain ⟨body, hb, rfl⟩ := runs_lowerFunction.1 h
  have hf : names (functionHead f) = [Label.function f.name] := rfl
  have ht : names (functionTail f) = [] := rfl
  rw [names_append, names_append, hf, ht, List.append_nil]
  exact (runs_lowerBody_names hb).2.cons _

theorem function_generate {fs : List Function}
    (h : Compilation.firstFault (generate s n fs) = none) :
    (generate s n fs).map LoweredFunction.function = fs := by
  induction fs generalizing n with
  | nil => rfl
  | cons f fs ih =>
    rw [generate] at h ⊢
    cases hr : (lowerFunction s f n).result with
    | error e => simp [hr, Compilation.firstFault] at h
    | ok u =>
      simp only [hr, Compilation.firstFault, List.findSome?_cons] at h ⊢
      rw [List.map_cons, ih h]

/-- The functions of a program that compiles, each with what it is lowered to. -/
theorem runs_of_mem_generate {fs : List Function}
    (h : Compilation.firstFault (generate s n fs) = none) {x : LoweredFunction}
    (hx : x ∈ generate s n fs) :
    x.function ∈ fs ∧ ∃ m t, Runs (lowerFunction s x.function) m x.emissions t () := by
  induction fs generalizing n with
  | nil => cases hx
  | cons f fs ih =>
    rw [generate] at h hx
    cases hr : (lowerFunction s f n).result with
    | error e => simp [hr, Compilation.firstFault] at h
    | ok u =>
      simp only [hr, Compilation.firstFault, List.findSome?_cons] at h
      simp only [hr, List.mem_cons] at hx
      rcases hx with rfl | hx
      · exact ⟨by simp, n, _, runs_of_result hr⟩
      · obtain ⟨hmem, hruns⟩ := ih h hx
        exact ⟨List.mem_cons_of_mem _ hmem, hruns⟩

end Lowering

/-! ### Programs -/

namespace Passes

variable {p : Program} (x : Passes p) (o : Options)

theorem references_data : references x.data = [] := by
  rw [references, List.filterMap_eq_nil_iff]
  intro e he
  obtain ⟨name, -, words, hw⟩ := runs_collect_mem x.collected he
  simp only [globalEmissions, List.mem_append, List.mem_cons, List.mem_map, List.not_mem_nil,
    or_false] at hw
  rcases hw with (rfl | rfl | rfl) | ⟨_, ⟨v, -, rfl⟩, rfl⟩ <;> rfl

theorem mem_ownLabels_of_declares {l : Text} (h : x.symbols.Declares l) : l ∈ x.ownLabels := by
  simp only [ownLabels, List.mem_append]
  rcases h with ⟨name, hg, rfl⟩ | ⟨name, k, hk, rfl⟩
  · exact .inr (.inl (List.mem_map_of_mem (x.isGlobal_iff.1 hg)))
  · obtain ⟨f, hf, rfl⟩ := List.mem_map.1 (x.mem_functions_of_arity hk)
    exact .inr (.inr (.inl (List.mem_map.2 ⟨f, hf, rfl⟩)))

theorem function_mem_ownLabels {name : Text} :
    Label.function name ∈ x.ownLabels ↔ ∃ f ∈ p.functions, f.name = name := by
  constructor
  · intro h
    simp only [ownLabels, generatedFrom, List.mem_append, List.mem_cons, List.mem_map,
      List.not_mem_nil, or_false] at h
    -- the labels of the other families start with other bytes
    rcases h with (h | h | h) | ⟨_, -, h⟩ | ⟨f, hf, h⟩ | ⟨_, -, h⟩
    case inr.inr.inl => exact ⟨f, hf, Label.function_injective h⟩
    all_goals exact absurd (congrArg List.head? h) (by simp)
  · rintro ⟨f, hf, rfl⟩
    simp only [ownLabels, List.mem_append]
    exact .inr (.inr (.inl (List.mem_map.2 ⟨f, hf, rfl⟩)))

theorem generated_mem_ownLabels {k : Nat} : Label.generated k ∈ x.ownLabels ↔ k < x.count := by
  constructor
  · intro h
    simp only [ownLabels, generatedFrom, List.mem_append, List.mem_cons, List.mem_map,
      List.not_mem_nil, or_false, List.mem_range'_1] at h
    rcases h with (h | h | h) | ⟨_, -, h⟩ | ⟨_, -, h⟩ | ⟨j, hj, h⟩
    case inr.inr.inr =>
      obtain rfl := Label.generated_injective h
      omega
    all_goals exact absurd (congrArg List.head? h) (by simp)
  · intro h
    simp only [ownLabels, generatedFrom, List.mem_append, List.mem_map, List.mem_range'_1]
    exact .inr (.inr (.inr ⟨k, by omega, rfl⟩))

/-- **What a program refers to**: the fixed labels and the entry function from the bootstrap, and
the rest from its functions. -/
theorem mem_references {l : Text} :
    l ∈ references (x.emissions o) ↔
      l ∈ [Label.exit, Label.stackPointer, Label.stack] ∨ l = Label.function o.effective.entry ∨
        l ∈ references x.code := by
  have hpro : references (Compilation.prologue o.effective) = [Label.exit, Label.stackPointer,
    Label.function o.effective.entry, Label.stack, Label.exit] := rfl
  have hepi : references Compilation.epilogue = [] := rfl
  simp only [emissions, references_append, hpro, hepi, x.references_data, List.append_nil,
    List.mem_append, List.mem_cons, List.not_mem_nil, or_false]
  tauto

/-- **The references that lead nowhere.** -/
theorem mem_references_undefined (hn : ∀ f ∈ p.functions, Name.isValid f.name = true) {l : Text} :
    l ∈ references (x.emissions o) ∧ l ∉ names (x.emissions o) ↔
      (l = Label.function o.effective.entry ∧ ∀ f ∈ p.functions, f.name ≠ o.effective.entry) ∨
        ∃ f ∈ p.functions, ∃ n ∈ f.targets, n ∉ f.labels ∧ l = Label.user f.name n := by
  have hcode := runs_lowerFunctions_refers x.generated
  have hdefined : l ∈ names (x.emissions o) ↔ l ∈ x.ownLabels ∨ l ∈ p.userLabels := by
    rw [(x.names_emissions o).mem_iff, List.mem_append]
  rw [hdefined, mem_references]
  constructor
  · rintro ⟨hl, hd⟩
    obtain ⟨hown, huser⟩ := not_or.1 hd
    rcases hl with hl | rfl | hl
    · exact absurd (List.mem_append_left _ (by simpa [or_comm, or_left_comm] using hl)) hown
    · refine .inl ⟨rfl, fun f hf he => hown (x.function_mem_ownLabels.2 ⟨f, hf, he⟩)⟩
    · rcases hcode.only l hl with ⟨k, -, hk, rfl⟩ | ht | hdecl
      · exact absurd (x.generated_mem_ownLabels.2 hk) hown
      · obtain ⟨f, hf, ht⟩ := List.mem_flatMap.1 ht
        obtain ⟨n, hn, rfl⟩ := List.mem_map.1 ht
        refine .inr ⟨f, hf, n, hn, fun hm => huser ?_, rfl⟩
        exact List.mem_flatMap.2 ⟨f, hf, List.mem_map_of_mem hm⟩
      · exact absurd (x.mem_ownLabels_of_declares hdecl) hown
  · rintro (⟨rfl, he⟩ | ⟨f, hf, n, ht, hm, rfl⟩)
    · refine ⟨.inr (.inl rfl), not_or.2 ⟨fun h => ?_, fun h => ?_⟩⟩
      · obtain ⟨f, hf, hfe⟩ := x.function_mem_ownLabels.1 h
        exact he f hf hfe
      · obtain ⟨f, -, h⟩ := List.mem_flatMap.1 h
        obtain ⟨n, -, h⟩ := List.mem_map.1 h
        exact absurd (congrArg List.head? h) (by simp)
    · have huser : Label.user f.name n ∉ p.userLabels := by
        intro h
        obtain ⟨g, hg, h⟩ := List.mem_flatMap.1 h
        obtain ⟨n', hn', h⟩ := List.mem_map.1 h
        obtain ⟨hname, rfl⟩ := Label.user_inj (hn g hg) (hn f hf) h
        obtain rfl := List.inj_on_of_nodup_map x.functions_nodup hg hf hname
        exact hm hn'
      refine ⟨.inr (.inr (hcode.targets _ ?_)), not_or.2 ⟨fun h => ?_, huser⟩⟩
      · exact List.mem_flatMap.2 ⟨f, hf, List.mem_map_of_mem ht⟩
      · exact x.head?_ownLabels h (Label.head?_user _ _)

/-- **Labels that are made up** are defined once and used. -/
theorem generated_closed (k : Nat) :
    (names (x.emissions o)).count (Label.generated k) = (if k < x.count then 1 else 0) ∧
      (Label.generated k ∈ references (x.emissions o) ↔ k < x.count) := by
  have hcode := runs_lowerFunctions_refers x.generated
  constructor
  · have huser : p.userLabels.count (Label.generated k) = 0 := by
      rw [List.count_eq_zero]
      intro h
      obtain ⟨f, -, h⟩ := List.mem_flatMap.1 h
      obtain ⟨n, -, h⟩ := List.mem_map.1 h
      exact absurd (congrArg List.head? h) (by simp)
    rw [(x.names_emissions o).count_eq, List.count_append, huser, Nat.add_zero,
      x.ownLabels_nodup.count]
    simp only [x.generated_mem_ownLabels]
  · rw [mem_references]
    constructor
    · rintro (h | h | h)
      · simp only [List.mem_cons, List.not_mem_nil, or_false] at h
        rcases h with h | h | h <;> exact absurd (congrArg List.head? h) (by simp)
      · exact absurd (congrArg List.head? h) (by simp)
      · rcases hcode.only _ h with ⟨j, -, hj, he⟩ | ht | hd
        · rwa [Label.generated_injective he]
        · obtain ⟨f, -, ht⟩ := List.mem_flatMap.1 ht
          obtain ⟨n, -, he⟩ := List.mem_map.1 ht
          exact absurd (congrArg List.head? he) (by simp)
        · exact x.generated_mem_ownLabels.1 (x.mem_ownLabels_of_declares hd)
    · exact fun h => .inr (.inr (hcode.generated k (Nat.zero_le k) h))

end Passes

/-- The labels that a function jumps to are its own. -/
theorem Lowering.user_of_mem_references {s : Symbols} {f : Function} {n t : Nat}
    {es : List Emission} {u : Unit} (h : Emitter.Runs (lowerFunction s f) n es t u) {g l : Text}
    (hl : Label.user g l ∈ references es) :
    ∃ m ∈ f.targets, Label.user f.name m = Label.user g l := by
  rcases (runs_lowerFunction_refers h).only _ hl with
    ⟨k, -, -, he⟩ | ht | ⟨_, -, he⟩ | ⟨_, _, -, he⟩
  case inr.inl => exact List.mem_map.1 ht
  all_goals exact absurd (congrArg List.head? he) (by simp)

/-- The labels of statements that a function defines are its own. -/
theorem Lowering.user_of_mem_names {s : Symbols} {f : Function} {n t : Nat} {es : List Emission}
    {u : Unit} (h : Emitter.Runs (lowerFunction s f) n es t u) {g l : Text}
    (hl : Label.user g l ∈ names es) : ∃ m ∈ f.labels, Label.user f.name m = Label.user g l := by
  rw [(runs_lowerFunction_names h).mem_iff, List.mem_cons, List.mem_append, generatedFrom,
    List.mem_map] at hl
  rcases hl with he | ⟨_, -, he⟩ | hl
  case inr.inr => exact List.mem_map.1 hl
  all_goals exact absurd (congrArg List.head? he) (by simp)

/-- The number of labels that are made up for a program. -/
def Program.labelCount (p : Program) : Nat :=
  (lowerFunctions (collect p {}).state p.functions 0).state

theorem firstFault_lowered {p : Program} {o : Options} (h : (compile p o).fault = none) :
    Compilation.firstFault p.lowered = none := by
  rw [compile_fault] at h
  cases hc : (collect p {}).result with
  | error e => simp [hc] at h
  | ok u => simpa [hc] using h

/-- **References are closed.**  In the listing of a program that compiles, and whose functions have
valid names, the labels that are used and not defined are that of an entry function which is not
declared and those that a function jumps to without marking them.  Labels are made up for the
numbers below `labelCount`, and each of them is defined once and used.  No label of a statement that
one function refers to is defined by another. -/
theorem references_closed {p : Program} {o : Options} (h : (compile p o).fault = none)
    (hn : ∀ f ∈ p.functions, Name.isValid f.name = true) :
    (∀ l, l ∈ (compile p o).listing.references ∧ l ∉ (compile p o).listing.labels ↔
      (l = Label.function o.effective.entry ∧ ∀ f ∈ p.functions, f.name ≠ o.effective.entry) ∨
        ∃ f ∈ p.functions, ∃ n ∈ f.targets, n ∉ f.labels ∧ l = Label.user f.name n) ∧
    (∀ k, (compile p o).listing.labels.count (Label.generated k)
        = (if k < p.labelCount then 1 else 0) ∧
      (Label.generated k ∈ (compile p o).listing.references ↔ k < p.labelCount)) ∧
    p.lowered.map LoweredFunction.function = p.functions ∧
    ∀ x ∈ p.lowered, ∀ y ∈ p.lowered, x.function ≠ y.function →
      ∀ f n, Label.user f n ∈ references x.emissions → Label.user f n ∉ names y.emissions := by
  obtain ⟨x, hx⟩ := compile_emissions h
  have hsymbols : (collect p {}).state = x.symbols := x.collected.state
  have hcount : p.labelCount = x.count := by
    rw [Program.labelCount, hsymbols]
    exact x.generated.state
  have hlowered := firstFault_lowered h
  rw [hx, Listing.labels, x.labels_image, Listing.references_emitAll, hcount]
  refine ⟨fun l => x.mem_references_undefined o hn, x.generated_closed o,
    function_generate hlowered, ?_⟩
  intro y hy z hz hne f n hu hd
  obtain ⟨hyf, _, _, hy⟩ := runs_of_mem_generate hlowered hy
  obtain ⟨hzf, _, _, hz⟩ := runs_of_mem_generate hlowered hz
  obtain ⟨a, -, ha⟩ := user_of_mem_references hy hu
  obtain ⟨b, -, hb⟩ := user_of_mem_names hz hd
  have hname := (Label.user_inj (hn _ hyf) (hn _ hzf) (ha.trans hb.symm)).1
  exact hne (List.inj_on_of_nodup_map x.functions_nodup hyf hzf hname)

/-- Two functions whose names and labels run into each other.  Each jumps to a label that only the
other one marks. -/
def crossedLabels : Program :=
  [.global "g" (.literal { kind := .decimal, text := "300" }),
   .function
    { name := "a"
      body := [.label "b_c", .gotoCond "ne" "b_c", .goto "c", .store "g" .r1] },
   .function
    { name := "a_b", params := ["x"]
      body := [.label "c", .gotoCond "eq" "c", .goto "b_c", .call "a" [] .absent] }]

theorem references_closed_crossedLabels :
    (compile crossedLabels { entry := "start" }).fault = none ∧
      (∀ f ∈ crossedLabels.functions, Name.isValid f.name = true) ∧
      (∀ l, l ∈ (compile crossedLabels { entry := "start" }).listing.references ∧
          l ∉ (compile crossedLabels { entry := "start" }).listing.labels ↔
        l = "FUNC_start" ∨ l = "LABEL_a_c" ∨ l = "LABEL_3_a_b_b_c") ∧
      crossedLabels.labelCount = 6 ∧
      (compile crossedLabels { entry := "start" }).listing.labels.count
        (Label.generated 5) = 1 := by
  have hf : (compile crossedLabels { entry := "start" }).fault = none := by decide
  have hn : ∀ f ∈ crossedLabels.functions, Name.isValid f.name = true := by decide
  have hcount : crossedLabels.labelCount = 6 := by decide
  have hopen : (crossedLabels.functions.flatMap fun f =>
      (f.targets.filter (· ∉ f.labels)).map (Label.user f.name)) =
        (["LABEL_a_c", "LABEL_3_a_b_b_c"] : List Text) := by decide
  obtain ⟨hundefined, hgenerated, -⟩ := references_closed hf hn
  refine ⟨hf, hn, fun l => ?_, hcount, ?_⟩
  · have hmem : (∃ f ∈ crossedLabels.functions, ∃ n ∈ f.targets, n ∉ f.labels ∧
        l = Label.user f.name n) ↔ l = "LABEL_a_c" ∨ l = "LABEL_3_a_b_b_c" := by
      have hl : l = "LABEL_a_c" ∨ l = "LABEL_3_a_b_b_c" ↔
          l ∈ (["LABEL_a_c", "LABEL_3_a_b_b_c"] : List Text) := by
        simp only [List.mem_cons, List.not_mem_nil, or_false]
      rw [hl, ← hopen]
      simp only [List.mem_flatMap, List.mem_map, List.mem_filter, decide_eq_true_eq, and_assoc,
        eq_comm (a := l)]
    rw [hundefined, hmem]
    exact or_congr_left (and_iff_left (by decide))
  · have := (hgenerated 5).1
    rw [hcount, if_pos (by decide)] at this
    exact this

end StumpGen
