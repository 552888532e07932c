import StumpGen.Proofs.Emission
import StumpGen.Proofs.Label
import StumpGen.Lowering.Program

/-!
# What a lowered statement emits

`Lowered sc st n es t` says that in the scope `sc`, with `n` labels made up before, the statement
`st` is lowered to the emissions `es`, with `t` labels made up afterwards.  There is one rule for
each form of code, so a proof about lowered statements is a proof by cases on the rules.

* `runs_lowerStatement` : lowering succeeds exactly as the rules say.
* `Lowered.names_perm` : a statement defines each label that it makes up exactly once, and besides
  these only the label that it marks.
-/

namespace StumpGen

open Assembly

/-- The target register that a register field names; `r0` if it names none. -/
def Register.target : Register → Reg
  | .r1 => .r1
  | .r2 => .r2
  | .r3 => .r3
  | .r4 => .r4
  | .lr => .r5
  | .sf => .r6
  | .pc => .r7
  | .zero | .absent | .undefined _ => .r0

/-- The labels that a statement marks. -/
def Statement.labels : Statement → List Text
  | .label name => [name]
  | _ => []

namespace Lowering

open Emitter

/-! ### Checks -/

theorem machineReg_eq_ok {r : Register} {d : Reg} :
    machineReg r = .ok d ↔ r.isValid = true ∧ d = r.target := by
  cases r <;> simp [machineReg, Register.isValid, Register.target, eq_comm]

theorem literalValue_eq_ok {l : Literal} {v : Int} : literalValue l = .ok v ↔ l.value = .ok v := by
  unfold literalValue
  cases l.value <;> simp [Except.mapError]

theorem smallImm_eq_ok {l : Literal} {v : Int} :
    smallImm l = .ok v ↔ l.value = .ok v ∧ minImm ≤ v ∧ v ≤ maxImm := by
  unfold smallImm literalValue
  cases l.value with
  | error e => simp [Except.mapError, bind, Except.bind]
  | ok w =>
    simp only [Except.mapError, bind, Except.bind, Except.ok.injEq]
    split
    · rename_i h
      constructor
      · intro e
        obtain rfl := Except.ok.inj e
        exact ⟨rfl, h⟩
      · rintro ⟨rfl, -⟩; rfl
    · rename_i h
      constructor
      · intro e; cases e
      · rintro ⟨rfl, h'⟩; exact absurd h' h

theorem shiftAmount_eq_ok {l : Literal} {k : Nat} :
    shiftAmount l = .ok k ↔ l.value = .ok (k : Int) ∧ (k : Int) ≤ maxImm := by
  unfold shiftAmount literalValue
  cases l.value with
  | error e => simp [Except.mapError, bind, Except.bind]
  | ok w =>
    simp only [Except.mapError, bind, Except.bind, Except.ok.injEq]
    split
    · rename_i h
      constructor
      · intro e
        obtain rfl := Except.ok.inj e
        have hw : (w.toNat : Int) = w := Int.toNat_of_nonneg h.1
        exact ⟨hw.symm, hw ▸ h.2⟩
      · rintro ⟨rfl, -⟩; rfl
    · rename_i h
      constructor
      · intro e; cases e
      · rintro ⟨rfl, h'⟩; exact absurd ⟨Int.natCast_nonneg k, h'⟩ h

theorem resolve_eq_global {sc : Scope} {name : Text} :
    sc.resolve name = .ok .global ↔ sc.symbols.isGlobal name = true := by
  unfold Scope.resolve
  split
  · simp_all
  · rename_i h
    simp only [h]
    split
    · split <;> simp
    · simp

theorem resolve_eq_slot {sc : Scope} {name : Text} {i : Nat} :
    sc.resolve name = .ok (.slot i) ↔
      sc.symbols.isGlobal name = false ∧ sc.frame.idxOf? name = some i ∧ (i : Int) ≤ maxImm := by
  unfold Scope.resolve
  split
  · rename_i h; simp [h]
  · rename_i h
    simp only [Bool.not_eq_true] at h
    simp only [h, true_and]
    split
    · rename_i j hj
      rw [hj]
      split
      · rename_i hle
        simp only [Except.ok.injEq, Variable.slot.injEq, Option.some.injEq]
        exact ⟨fun e => ⟨e, e ▸ hle⟩, And.left⟩
      · rename_i hle
        simp only [reduceCtorEq, Option.some.injEq, false_iff, not_and]
        rintro rfl; exact hle
    · rename_i hj; simp [hj]

theorem lt_length_of_slot {sc : Scope} {name : Text} {i : Nat}
    (h : sc.resolve name = .ok (.slot i)) : i < sc.frame.length := by
  have hi := (resolve_eq_slot.1 h).2.1
  rw [List.idxOf?_eq_map_finIdxOf?_val, Option.map_eq_some_iff] at hi
  obtain ⟨j, -, rfl⟩ := hi
  exact j.isLt

/-! ### Pieces of code -/

/-- What puts an embedded word into a register. -/
def embedding (dest : Reg) (word : Instruction) (n : Nat) : List Emission :=
  [.code (.jump (Label.generated n)), .label (Label.generated (n + 1)), .code word,
    .label (Label.generated n), .code (.loadLabel dest (Label.generated (n + 1)))]

/-- The register that a store to a global borrows. -/
def borrowed (src : Reg) : Reg := if src = .r5 then .r1 else .r5

/-- What stores a register to a global. -/
def storing (name : Text) (src : Reg) (n : Nat) : List Emission :=
  [.code (.jump (Label.generated n)), .label (Label.generated (n + 1)),
    .code (.dataLabel (Label.global name)), .label (Label.generated (n + 2)), .code (.data 0),
    .label (Label.generated n), .code (.storeLabel (borrowed src) (Label.generated (n + 2))),
    .code (.loadLabel (borrowed src) (Label.generated (n + 1))),
    .code (.storeAt src (borrowed src)),
    .code (.loadLabel (borrowed src) (Label.generated (n + 2)))]

/-- What saves the registers behind a frame of `n` words. -/
def saving (n : Nat) : List Emission :=
  .code (.addImm .r6 .r6 n) ::
    (savedSlots.map fun (r, slot) => .code (.storeSlot r .r6 slot)) ++ [.code (.addImm .r6 .r6 5)]

/-- What jumps to a function. -/
def entering (callee : Text) (n : Nat) : List Emission :=
  [.code (.loadLabel .r5 (Label.generated (n + 2))), .code (.loadLabel .r1 (Label.generated n)),
    .code (.move .r7 .r1), .label (Label.generated n),
    .code (.dataLabel (Label.function callee)), .label (Label.generated (n + 2)),
    .code (.dataLabel (Label.generated (n + 1)))]

/-- What restores the registers but `out` behind a frame of `n` words. -/
def restoring (n : Nat) (out : Option Reg) : List Emission :=
  .code (.addImm .r6 .r6 (-5)) ::
    ((savedSlots.filter fun (r, _) => some r ≠ out).map fun (r, slot) =>
      .code (.loadSlot r .r6 slot)) ++ [.code (.addImm .r6 .r6 (-n))]

/-- What loads an argument into `r1`. -/
inductive Loaded (sc : Scope) : Argument → Nat → List Emission → Nat → Prop
  | global {name n} (h : sc.symbols.isGlobal name = true) :
    Loaded sc (.identifier name) n
      (embedding .r1 (.dataLabel (Label.global name)) n ++ [.code (.loadAt .r1 .r1)]) (n + 2)
  | slot {name n i} (h : sc.resolve name = .ok (.slot i)) :
    Loaded sc (.identifier name) n
      [.code (.addImm .r6 .r6 (-5)), .code (.addImm .r6 .r6 (-(sc.frame.length : Int))),
        .code (.loadSlot .r1 .r6 i), .code (.addImm .r6 .r6 sc.frame.length),
        .code (.addImm .r6 .r6 5)] n
  | small {l n v} (h : l.value = .ok v) (hv : minImm ≤ v ∧ v ≤ maxImm) :
    Loaded sc (.literal l) n [.code (.movImm .r1 v)] n
  | wide {l n v} (h : l.value = .ok v) (hv : ¬ (minImm ≤ v ∧ v ≤ maxImm))
      (hw : Literal.minWord ≤ v ∧ v ≤ Literal.maxWord) :
    Loaded sc (.literal l) n (embedding .r1 (.data v) n) (n + 2)
  | register {r n slot} (h : savedSlots.lookup r.target = some slot) (hr : r.isValid = true) :
    Loaded sc (.register r) n [.code (.loadSlot .r1 .r6 ((slot : Int) - 5))] n

/-- What passes the arguments from the `k`-th on. -/
inductive Passed (sc : Scope) : Nat → List Argument → Nat → List Emission → Nat → Prop
  | nil {k n} : Passed sc k [] n [] n
  | cons {k a as n es m fs t} (ha : Loaded sc a n es m) (has : Passed sc (k + 1) as m fs t) :
    Passed sc k (a :: as) n (es ++ .code (.storeSlot .r1 .r6 k) :: fs) t

/-- The remark in front of the arguments of a call. -/
def argumentsRemark (args : List Argument) : List Emission :=
  if args.isEmpty then [] else [.comment "Copying arguments"]

/-- What a call needs of its scope. -/
structure Callable (sc : Scope) (callee : Text) (args : List Argument) (out : Register) :
    Prop where
  /-- The callee is declared with as many parameters as there are arguments. -/
  arity : sc.symbols.arity? callee = some args.length
  /-- The arguments can be stored. -/
  args_le : args.length ≤ 16
  /-- The caller's frame can be stepped over. -/
  frame_le : sc.frame.length ≤ 15
  /-- If there is an output it is a register. -/
  out_valid : out ≠ .absent → out.isValid = true

/-- The target register that an output field keeps. -/
def keptReg (out : Register) : Option Reg := if out = .absent then none else some out.target

/-- **The lowering of statements, rule by rule.** -/
inductive Lowered (sc : Scope) : Statement → Nat → List Emission → Nat → Prop
  | addAssignImm {dest value v n} (hd : dest.isValid = true) (h : value.value = .ok v)
      (hv : minImm ≤ v ∧ v ≤ maxImm) :
    Lowered sc (.addAssignImm dest value) n
      [.comment ("Adding " ++ Text.ofInt v ++ " to " ++ dest.target.name),
        .code (.addImm dest.target dest.target v)] n
  | addAssignReg {dest src n} (hd : dest.isValid = true) (hs : src.isValid = true) :
    Lowered sc (.addAssignReg dest src) n
      [.comment ("Adding " ++ src.target.name ++ " to " ++ dest.target.name),
        .code (.addReg dest.target dest.target src.target)] n
  | andImm {dest left value v n} (hd : dest.isValid = true) (hl : left.isValid = true)
      (h : value.value = .ok v) (hv : minImm ≤ v ∧ v ≤ maxImm) :
    Lowered sc (.andImm dest left value) n
      [.comment ("Anding " ++ left.target.name ++ " with " ++ Text.ofInt v ++ " to "
          ++ dest.target.name),
        .code (.andImm dest.target left.target v)] n
  | andReg {dest left right n} (hd : dest.isValid = true) (hl : left.isValid = true)
      (hr : right.isValid = true) :
    Lowered sc (.andReg dest left right) n
      [.comment ("Anding " ++ left.target.name ++ " with " ++ right.target.name ++ " to "
          ++ dest.target.name),
        .code (.andReg dest.target left.target right.target)] n
  | cmpImm {left value v n} (hl : left.isValid = true) (h : value.value = .ok v)
      (hv : minImm ≤ v ∧ v ≤ maxImm) :
    Lowered sc (.cmpImm left value) n
      [.comment ("Comparing " ++ left.target.name ++ " with " ++ Text.ofInt v),
        .code (.cmpImm left.target v)] n
  | cmpReg {left right n} (hl : left.isValid = true) (hr : right.isValid = true) :
    Lowered sc (.cmpReg left right) n
      [.comment ("Comparing " ++ left.target.name ++ " with " ++ right.target.name),
        .code (.cmpReg left.target right.target .none)] n
  | goto {target n} :
    Lowered sc (.goto target) n [.code (.jump (Label.user sc.function target))] n
  | gotoCond {cond target n} (h : cond ≠ []) :
    Lowered sc (.gotoCond cond target) n [.code (.branch cond (Label.user sc.function target))] n
  | label {name n} :
    Lowered sc (.label name) n
      [.comment ("User label " ++ name), .label (Label.user sc.function name), .code .nop] n
  | loadGlobal {dest name n} (hd : dest.isValid = true) (h : sc.symbols.isGlobal name = true) :
    Lowered sc (.load dest name) n
      (.comment ("Loading global " ++ name ++ " into " ++ dest.target.name) ::
        embedding dest.target (.dataLabel (Label.global name)) n
          ++ [.code (.loadAt dest.target dest.target)]) (n + 2)
  | loadSlot {dest name i n} (hd : dest.isValid = true) (h : sc.resolve name = .ok (.slot i)) :
    Lowered sc (.load dest name) n
      [.comment ("Loading local " ++ name ++ " into " ++ dest.target.name),
        .code (.loadSlot dest.target .r6 i)] n
  | addrGlobal {dest name n} (hd : dest.isValid = true) (h : sc.symbols.isGlobal name = true) :
    Lowered sc (.loadAddr dest name) n
      (.comment ("Loading address of global " ++ name ++ " into " ++ dest.target.name) ::
        embedding dest.target (.dataLabel (Label.global name)) n) (n + 2)
  | addrSlot {dest name i n} (hd : dest.isValid = true) (h : sc.resolve name = .ok (.slot i)) :
    Lowered sc (.loadAddr dest name) n
      [.comment ("Loading address of local " ++ name ++ " into " ++ dest.target.name),
        .code (.addImm dest.target .r6 i)] n
  | loadReg {dest src n} (hd : dest.isValid = true) (hs : src.isValid = true) :
    Lowered sc (.loadReg dest src) n
      [.comment ("Loading address " ++ src.target.name ++ " to " ++ dest.target.name),
        .code (.loadAt dest.target src.target)] n
  | loadOffset {dest base offset n} (hd : dest.isValid = true) (hb : base.isValid = true)
      (ho : offset.isValid = true) :
    Lowered sc (.loadOffset dest base offset) n
      [.comment ("Loading from " ++ base.target.name ++ " offset by " ++ offset.target.name
          ++ " to " ++ dest.target.name),
        .code (.load dest.target { base := base.target, offset := .reg offset.target })] n
  | storeGlobal {name src n} (hs : src.isValid = true) (h : sc.symbols.isGlobal name = true) :
    Lowered sc (.store name src) n
      (.comment ("Storing " ++ src.target.name ++ " to global " ++ name) ::
        storing name src.target n) (n + 3)
  | storeSlot {name src i n} (hs : src.isValid = true) (h : sc.resolve name = .ok (.slot i)) :
    Lowered sc (.store name src) n
      [.comment ("Storing " ++ src.target.name ++ " into local " ++ name),
        .code (.storeSlot src.target .r6 i)] n
  | storeReg {addr src n} (ha : addr.isValid = true) (hs : src.isValid = true) :
    Lowered sc (.storeReg addr src) n
      [.comment ("Storing " ++ src.target.name ++ " to addr in " ++ addr.target.name),
        .code (.storeAt src.target addr.target)] n
  | storeOffset {base offset value n} (hb : base.isValid = true) (ho : offset.isValid = true)
      (hv : value.isValid = true) :
    Lowered sc (.storeOffset base offset value) n
      [.comment ("Storing " ++ value.target.name ++ " to " ++ base.target.name ++ " offset by "
          ++ offset.target.name),
        .code (.store value.target { base := base.target, offset := .reg offset.target })] n
  | setSmall {dest value v n} (hd : dest.isValid = true) (h : value.value = .ok v)
      (hv : minImm ≤ v ∧ v ≤ maxImm) :
    Lowered sc (.set dest value) n
      [.comment ("Setting " ++ dest.target.name ++ " to " ++ Text.ofInt v),
        .code (.movImm dest.target v)] n
  | setWide {dest value v n} (hd : dest.isValid = true) (h : value.value = .ok v)
      (hv : ¬ (minImm ≤ v ∧ v ≤ maxImm)) (hw : Literal.minWord ≤ v ∧ v ≤ Literal.maxWord) :
    Lowered sc (.set dest value) n
      (.comment ("Setting " ++ dest.target.name ++ " to " ++ Text.ofInt v) ::
        embedding dest.target (.data v) n) (n + 2)
  | shiftLeft {dest src amount} {k n : Nat} (hd : dest.isValid = true) (hs : src.isValid = true)
      (h : amount.value = .ok (k : Int)) (hk : (k : Int) ≤ maxImm) :
    Lowered sc (.shiftLeft dest src amount) n
      (.comment ("Left shifting " ++ src.target.name ++ " by " ++ Text.ofNat k ++ " into "
          ++ dest.target.name) ::
        (doublings dest.target src.target k).map .code) n
  | call {callee args out n es t} (hc : Callable sc callee args out)
      (ha : Passed sc 0 args n es t) :
    Lowered sc (.call callee args out) n
      ([.comment ("Calling function " ++ callee), .comment "Saving registers"]
        ++ saving sc.frame.length ++ argumentsRemark args ++ es ++ .comment "Jumping" ::
        entering callee t ++ [.comment "Restoring registers", .label (Label.generated (t + 1))]
        ++ restoring sc.frame.length (keptReg out)) (t + 3)
  | nop {n} : Lowered sc .nop n [.code .nop] n
  | declare {name n} : Lowered sc (.declare name) n [] n

/-! ### The rules and the code generator -/

section Runs

variable {sc : Scope} {n t : Nat} {es : List Emission} {u : Unit}

@[simp] theorem runs_fresh {l : Text} :
    Runs fresh n es t l ↔ l = Label.generated n ∧ es = [] ∧ t = n + 1 := by
  constructor
  · rintro ⟨rfl, rfl, h⟩; exact ⟨(Except.ok.inj h).symm, rfl, rfl⟩
  · rintro ⟨rfl, rfl, rfl⟩; exact ⟨rfl, rfl, rfl⟩

@[simp] theorem runs_check {α : Type} {r : Except Error α} {a : α} :
    Runs (check r) n es t a ↔ r = .ok a ∧ es = [] ∧ t = n := runs_ofExcept

theorem runs_check_bind {α : Type} {r : Except Error α} {f : α → Lower Unit} :
    Runs (check r >>= f) n es t u ↔ ∃ a, r = .ok a ∧ Runs (f a) n es t u := by
  rw [runs_bind]
  constructor
  · rintro ⟨_, _, a, _, h, hf, rfl⟩
    obtain ⟨ha, rfl, rfl⟩ := runs_check.1 h
    exact ⟨a, ha, hf⟩
  · rintro ⟨a, ha, hf⟩
    exact ⟨[], n, a, es, runs_check.2 ⟨ha, rfl, rfl⟩, hf, rfl⟩

theorem runs_fresh_bind {α : Type} {f : Text → Lower α} {a : α} :
    Runs (fresh >>= f) n es t a ↔ Runs (f (Label.generated n)) (n + 1) es t a := by
  rw [runs_bind]
  constructor
  · rintro ⟨_, _, _, _, h, hf, rfl⟩
    obtain ⟨rfl, rfl, rfl⟩ := runs_fresh.1 h
    exact hf
  · intro hf
    exact ⟨[], n + 1, _, es, runs_fresh.2 ⟨rfl, rfl, rfl⟩, hf, rfl⟩

theorem runs_embed {dest : Reg} {word : Instruction} :
    Runs (embed dest word) n es t u ↔ es = embedding dest word n ∧ t = n + 2 := by
  simp [embed, runs_bind, embedding, and_comm]

theorem runs_embed_bind {dest : Reg} {word : Instruction} {f : Unit → Lower Unit} :
    Runs (embed dest word >>= f) n es t u ↔
      ∃ es', Runs (f ()) (n + 2) es' t u ∧ es = embedding dest word n ++ es' := by
  rw [runs_bind]
  constructor
  · rintro ⟨_, _, _, es', h, hf, rfl⟩
    obtain ⟨rfl, rfl⟩ := runs_embed.1 h
    exact ⟨es', hf, rfl⟩
  · rintro ⟨es', hf, rfl⟩
    exact ⟨_, _, (), es', runs_embed.2 ⟨rfl, rfl⟩, hf, rfl⟩

theorem runs_setConstant {dest : Reg} {v : Int} :
    Runs (setConstant dest v) n es t u ↔
      (minImm ≤ v ∧ v ≤ maxImm) ∧ es = [.code (.movImm dest v)] ∧ t = n ∨
      ¬ (minImm ≤ v ∧ v ≤ maxImm) ∧ (Literal.minWord ≤ v ∧ v ≤ Literal.maxWord) ∧
        es = embedding dest (.data v) n ∧ t = n + 2 := by
  unfold setConstant
  split
  · rename_i h
    simp [h]
  · rename_i h
    simp only [h, false_and, not_false_eq_true, true_and, false_or]
    simp only [runs_bind, runs_check, Literal.checkWord]
    split
    · rename_i hw
      simp [hw, Except.mapError, runs_embed, and_comm]
    · rename_i hw
      simp [hw, Except.mapError]

theorem runs_storeGlobal {name : Text} {src : Reg} :
    Runs (storeGlobal name src) n es t u ↔ es = storing name src n ∧ t = n + 3 := by
  simp [storeGlobal, runs_bind, storing, borrowed, and_comm]

theorem runs_loadArgument {a : Argument} :
    Runs (loadArgument sc a) n es t u ↔ Loaded sc a n es t := by
  cases a with
  | identifier name =>
    simp only [loadArgument, runs_check_bind]
    constructor
    · rintro ⟨x, hx, h⟩
      cases x with
      | global =>
        simp only [globalAddress, runs_embed_bind, runs_code] at h
        obtain ⟨_, ⟨rfl, rfl⟩, rfl⟩ := h
        exact .global (resolve_eq_global.1 hx)
      | slot i =>
        have hpos : 0 < sc.frame.length := Nat.zero_lt_of_lt (lt_length_of_slot hx)
        simp only [hpos, ↓reduceIte, runs_code_bind, runs_code] at h
        obtain ⟨_, ⟨_, ⟨_, ⟨_, ⟨rfl, rfl⟩, rfl⟩, rfl⟩, rfl⟩, rfl⟩ := h
        exact .slot hx
    · intro h
      cases h with
      | global h =>
        refine ⟨.global, resolve_eq_global.2 h, ?_⟩
        simp [globalAddress, runs_embed_bind]
      | slot h =>
        have hpos : 0 < sc.frame.length := Nat.zero_lt_of_lt (lt_length_of_slot h)
        refine ⟨_, h, ?_⟩
        simp [hpos, runs_code_bind]
  | literal l =>
    simp only [loadArgument, runs_check_bind, literalValue_eq_ok, runs_setConstant]
    constructor
    · rintro ⟨v, hv, ⟨hs, rfl, rfl⟩ | ⟨hs, hw, rfl, rfl⟩⟩
      · exact .small hv hs
      · exact .wide hv hs hw
    · intro h
      cases h with
      | small hv hs => exact ⟨_, hv, .inl ⟨hs, rfl, rfl⟩⟩
      | wide hv hs hw => exact ⟨_, hv, .inr ⟨hs, hw, rfl, rfl⟩⟩
  | register r =>
    simp only [loadArgument, runs_check_bind, machineReg_eq_ok]
    constructor
    · rintro ⟨_, ⟨hr, rfl⟩, h⟩
      cases hl : savedSlots.lookup r.target with
      | none => simp [hl] at h
      | some slot =>
        simp only [hl, runs_code] at h
        obtain ⟨rfl, rfl⟩ := h
        exact .register hl hr
    · intro h
      cases h with
      | register hl hr =>
        exact ⟨_, ⟨hr, rfl⟩, by simp [hl]⟩

theorem runs_passArguments {k : Nat} {args : List Argument} :
    Runs (passArguments sc k args) n es t u ↔ Passed sc k args n es t := by
  induction args generalizing k n es with
  | nil =>
    simp only [passArguments, runs_pure]
    constructor
    · rintro ⟨rfl, rfl, -⟩; exact .nil
    · intro h; cases h; simp
  | cons a as ih =>
    simp only [passArguments, runs_bind, runs_loadArgument, runs_code, ih]
    constructor
    · rintro ⟨_, _, _, _, ha, ⟨_, _, _, _, ⟨rfl, rfl⟩, has, rfl⟩, rfl⟩
      exact .cons ha has
    · intro h
      cases h with
      | cons ha has => exact ⟨_, _, (), _, ha, ⟨_, _, (), _, ⟨rfl, rfl⟩, has, rfl⟩, rfl⟩

theorem checkCall_eq_ok {callee : Text} {args : List Argument} {out : Register}
    {kept : Option Reg} :
    checkCall sc callee args out = .ok kept ↔
      Callable sc callee args out ∧ kept = keptReg out := by
  unfold checkCall
  cases ha : sc.symbols.arity? callee with
  | none =>
    simp only [throw, throwThe, MonadExceptOf.throw, reduceCtorEq, false_iff]
    exact fun h => by simpa [ha] using h.1.arity
  | some arity =>
    simp only [throw, throwThe, MonadExceptOf.throw, bind, Except.bind, pure, Except.pure]
    split
    · rename_i h
      simp only [reduceCtorEq, false_iff]
      exact fun hc => h (by simpa [ha, eq_comm] using hc.1.arity)
    · rename_i hlen
      obtain rfl := Decidable.not_not.1 hlen
      split
      · rename_i h
        simp only [reduceCtorEq, false_iff]
        intro hc
        have := hc.1.args_le
        simp only [maxImm] at h
        omega
      · rename_i hargs
        split
        · rename_i h
          simp only [reduceCtorEq, false_iff]
          intro hc
          have := hc.1.frame_le
          simp only [maxImm] at h
          omega
        · rename_i hframe
          simp only [maxImm] at hargs hframe
          have hc : Callable sc callee args out ↔ (out ≠ .absent → out.isValid = true) :=
            ⟨Callable.out_valid, fun h => ⟨ha, by omega, by omega, h⟩⟩
          rw [hc, keptReg]
          split
          · rename_i h
            simp only [Except.ok.injEq]
            exact ⟨fun e => ⟨fun hn => absurd h hn, e.symm⟩, fun e => e.2.symm⟩
          · rename_i h
            simp only [h, ne_eq, not_false_eq_true, forall_const]
            cases hm : machineReg out with
            | error e =>
              have hi : ¬ out.isValid = true := by
                intro hv
                rw [machineReg_eq_ok.2 ⟨hv, rfl⟩] at hm
                cases hm
              simp [Functor.map, Except.map, hi]
            | ok d =>
              obtain ⟨hv, rfl⟩ := machineReg_eq_ok.1 hm
              simp [Functor.map, Except.map, hv, eq_comm]

theorem runs_saveRegisters {k : Nat} : Runs (saveRegisters k) n es t u ↔ es = saving k ∧ t = n := by
  simp [saveRegisters, runs_bind, saving, savedSlots, savedRegs, and_comm]

theorem runs_enter {callee resume : Text} :
    Runs (enter callee) n es t resume ↔
      es = entering callee n ∧ t = n + 3 ∧ resume = Label.generated (n + 1) := by
  simp only [enter, runs_fresh_bind, runs_codes_bind, runs_label_bind, runs_code_bind, runs_pure]
  constructor
  · rintro ⟨_, ⟨_, ⟨_, ⟨_, ⟨_, ⟨rfl, rfl, rfl⟩, rfl⟩, rfl⟩, rfl⟩, rfl⟩, rfl⟩
    exact ⟨rfl, rfl, rfl⟩
  · rintro ⟨rfl, rfl, rfl⟩
    exact ⟨_, ⟨_, ⟨_, ⟨_, ⟨_, ⟨rfl, rfl, rfl⟩, rfl⟩, rfl⟩, rfl⟩, rfl⟩, rfl⟩

theorem runs_restoreRegisters {k : Nat} {out : Option Reg} :
    Runs (restoreRegisters k out) n es t u ↔ es = restoring k out ∧ t = n := by
  simp [restoreRegisters, runs_bind, restoring, and_comm, Function.comp_def]

theorem runs_lowerCall {callee : Text} {args : List Argument} {out : Register} :
    Runs (lowerCall sc callee args out) n es t u ↔ Lowered sc (.call callee args out) n es t := by
  -- all but the remark in front of the arguments, which is there only if there are some
  have tail : ∀ {es : List Emission},
      Runs (do
        passArguments sc 0 args
        comment "Jumping"
        let resume ← enter callee
        comment "Restoring registers"
        label resume
        restoreRegisters sc.frame.length (keptReg out)) n es t u ↔
      ∃ fs m, Passed sc 0 args n fs m ∧ t = m + 3 ∧
        es = fs ++ .comment "Jumping" :: entering callee m ++
          [.comment "Restoring registers", .label (Label.generated (m + 1))]
          ++ restoring sc.frame.length (keptReg out) := by
    intro es
    simp only [runs_bind (x := passArguments sc 0 args), runs_bind (x := enter callee),
      runs_passArguments, runs_comment_bind, runs_label_bind, runs_enter, runs_restoreRegisters]
    constructor
    · rintro ⟨fs, m, -, _, ha, ⟨_, ⟨_, _, _, _, ⟨rfl, rfl, rfl⟩,
        ⟨_, ⟨_, ⟨rfl, rfl⟩, rfl⟩, rfl⟩, rfl⟩, rfl⟩, rfl⟩
      exact ⟨fs, m, ha, rfl, by simp⟩
    · rintro ⟨fs, m, ha, rfl, rfl⟩
      exact ⟨fs, m, (), _, ha, ⟨_, ⟨_, _, _, _, ⟨rfl, rfl, rfl⟩,
        ⟨_, ⟨_, ⟨rfl, rfl⟩, rfl⟩, rfl⟩, rfl⟩, rfl⟩, by simp⟩
  have head : ∀ {es : List Emission}, Runs (do
        if !args.isEmpty then comment "Copying arguments"
        passArguments sc 0 args
        comment "Jumping"
        let resume ← enter callee
        comment "Restoring registers"
        label resume
        restoreRegisters sc.frame.length (keptReg out)) n es t u ↔
      ∃ fs m, Passed sc 0 args n fs m ∧ t = m + 3 ∧
        es = argumentsRemark args ++ fs ++ .comment "Jumping" :: entering callee m ++
          [.comment "Restoring registers", .label (Label.generated (m + 1))]
          ++ restoring sc.frame.length (keptReg out) := by
    intro es
    cases hargs : args.isEmpty with
    | true =>
      simp only [Bool.not_true, Bool.false_eq_true, ↓reduceIte, tail, argumentsRemark, hargs,
        List.nil_append]
    | false =>
      simp only [Bool.not_false, ↓reduceIte, runs_comment_bind, tail, argumentsRemark, hargs,
        Bool.false_eq_true]
      constructor
      · rintro ⟨_, ⟨fs, m, ha, rfl, rfl⟩, rfl⟩
        exact ⟨fs, m, ha, rfl, by simp⟩
      · rintro ⟨fs, m, ha, rfl, rfl⟩
        exact ⟨_, ⟨fs, m, ha, rfl, rfl⟩, by simp⟩
  simp only [lowerCall, runs_check_bind, checkCall_eq_ok, runs_comment_bind,
    runs_bind (x := saveRegisters _), runs_saveRegisters]
  constructor
  · rintro ⟨_, ⟨hc, rfl⟩, _, ⟨_, ⟨_, _, _, _, ⟨rfl, rfl⟩, h, rfl⟩, rfl⟩, rfl⟩
    obtain ⟨fs, m, ha, rfl, rfl⟩ := head.1 h
    have := Lowered.call hc ha
    simpa using this
  · intro h
    cases h with
    | call hc ha =>
      exact ⟨_, ⟨hc, rfl⟩, _, ⟨_, ⟨_, _, (), _, ⟨rfl, rfl⟩, head.2 ⟨_, _, ha, rfl, rfl⟩, rfl⟩, rfl⟩,
        by simp⟩

/-- **Lowering succeeds exactly as the rules say.** -/
theorem runs_lowerStatement {st : Statement} :
    Runs (lowerStatement sc st) n es t u ↔ Lowered sc st n es t := by
  cases st with
  | addAssignImm dest value =>
    simp only [lowerStatement, runs_check_bind, runs_comment_bind, runs_code, machineReg_eq_ok,
      smallImm_eq_ok]
    constructor
    · rintro ⟨_, ⟨hd, rfl⟩, v, ⟨hv, hs⟩, _, ⟨rfl, rfl⟩, rfl⟩
      exact .addAssignImm hd hv hs
    · intro h
      cases h with
      | addAssignImm hd hv hs => simp [hd, hv, hs]
  | addAssignReg dest src =>
    simp only [lowerStatement, runs_check_bind, runs_comment_bind, runs_code, machineReg_eq_ok]
    constructor
    · rintro ⟨_, ⟨hd, rfl⟩, _, ⟨hs, rfl⟩, _, ⟨rfl, rfl⟩, rfl⟩
      exact .addAssignReg hd hs
    · intro h
      cases h with
      | addAssignReg hd hs => simp [hd, hs]
  | addImm dest left value | addReg dest left right =>
    simp only [lowerStatement, runs_fail, false_iff]
    intro h
    cases h
  | andImm dest left value =>
    simp only [lowerStatement, runs_check_bind, runs_comment_bind, runs_code, machineReg_eq_ok,
      smallImm_eq_ok]
    constructor
    · rintro ⟨_, ⟨hd, rfl⟩, _, ⟨hl, rfl⟩, v, ⟨hv, hs⟩, _, ⟨rfl, rfl⟩, rfl⟩
      exact .andImm hd hl hv hs
    · intro h
      cases h with
      | andImm hd hl hv hs => simp [hd, hl, hv, hs]
  | andReg dest left right =>
    simp only [lowerStatement, runs_check_bind, runs_comment_bind, runs_code, machineReg_eq_ok]
    constructor
    · rintro ⟨_, ⟨hd, rfl⟩, _, ⟨hl, rfl⟩, _, ⟨hr, rfl⟩, _, ⟨rfl, rfl⟩, rfl⟩
      exact .andReg hd hl hr
    · intro h
      cases h with
      | andReg hd hl hr => simp [hd, hl, hr]
  | cmpImm left value =>
    simp only [lowerStatement, runs_check_bind, runs_comment_bind, runs_code, machineReg_eq_ok,
      smallImm_eq_ok]
    constructor
    · rintro ⟨_, ⟨hl, rfl⟩, v, ⟨hv, hs⟩, _, ⟨rfl, rfl⟩, rfl⟩
      exact .cmpImm hl hv hs
    · intro h
      cases h with
      | cmpImm hl hv hs => simp [hl, hv, hs]
  | cmpReg left right =>
    simp only [lowerStatement, runs_check_bind, runs_comment_bind, runs_code, machineReg_eq_ok]
    constructor
    · rintro ⟨_, ⟨hl, rfl⟩, _, ⟨hr, rfl⟩, _, ⟨rfl, rfl⟩, rfl⟩
      exact .cmpReg hl hr
    · intro h
      cases h with
      | cmpReg hl hr => simp [hl, hr]
  | testImm left value | testReg left right =>
    simp only [lowerStatement, runs_fail, false_iff]
    intro h
    cases h
  | goto target =>
    simp only [lowerStatement, runs_code]
    constructor
    · rintro ⟨rfl, rfl⟩; exact .goto
    · intro h; cases h; exact ⟨rfl, rfl⟩
  | gotoCond cond target =>
    simp only [lowerStatement, List.isEmpty_iff]
    split
    · rename_i hc
      simp only [runs_fail, false_iff]
      intro h
      cases h with
      | gotoCond h => exact h hc
    · rename_i hc
      simp only [runs_code]
      constructor
      · rintro ⟨rfl, rfl⟩; exact .gotoCond hc
      · intro h; cases h; exact ⟨rfl, rfl⟩
  | label name =>
    simp only [lowerStatement, runs_comment_bind, runs_label_bind, runs_code]
    constructor
    · rintro ⟨_, ⟨_, ⟨rfl, rfl⟩, rfl⟩, rfl⟩; exact .label
    · intro h; cases h; simp
  | load dest name =>
    simp only [lowerStatement, loadVariable, runs_check_bind, machineReg_eq_ok]
    constructor
    · rintro ⟨_, ⟨hd, rfl⟩, x, hx, h⟩
      cases x with
      | global =>
        simp only [globalAddress, runs_comment_bind, runs_embed_bind, runs_code] at h
        obtain ⟨_, ⟨_, ⟨rfl, rfl⟩, rfl⟩, rfl⟩ := h
        exact .loadGlobal hd (resolve_eq_global.1 hx)
      | slot i =>
        simp only [runs_comment_bind, runs_code] at h
        obtain ⟨_, ⟨rfl, rfl⟩, rfl⟩ := h
        exact .loadSlot hd hx
    · intro h
      cases h with
      | loadGlobal hd h =>
        refine ⟨_, ⟨hd, rfl⟩, .global, resolve_eq_global.2 h, ?_⟩
        simp [globalAddress, runs_comment_bind, runs_embed_bind]
      | loadSlot hd h =>
        refine ⟨_, ⟨hd, rfl⟩, _, h, ?_⟩
        simp [runs_comment_bind]
  | loadAddr dest name =>
    simp only [lowerStatement, loadAddress, runs_check_bind, machineReg_eq_ok]
    constructor
    · rintro ⟨_, ⟨hd, rfl⟩, x, hx, h⟩
      cases x with
      | global =>
        simp only [globalAddress, runs_comment_bind, runs_embed] at h
        obtain ⟨_, ⟨rfl, rfl⟩, rfl⟩ := h
        exact .addrGlobal hd (resolve_eq_global.1 hx)
      | slot i =>
        simp only [runs_comment_bind, runs_code] at h
        obtain ⟨_, ⟨rfl, rfl⟩, rfl⟩ := h
        exact .addrSlot hd hx
    · intro h
      cases h with
      | addrGlobal hd h =>
        refine ⟨_, ⟨hd, rfl⟩, .global, resolve_eq_global.2 h, ?_⟩
        simp [globalAddress, runs_comment_bind, runs_embed]
      | addrSlot hd h =>
        refine ⟨_, ⟨hd, rfl⟩, _, h, ?_⟩
        simp [runs_comment_bind]
  | loadReg dest src =>
    simp only [lowerStatement, runs_check_bind, runs_comment_bind, runs_code, machineReg_eq_ok]
    constructor
    · rintro ⟨_, ⟨hd, rfl⟩, _, ⟨hs, rfl⟩, _, ⟨rfl, rfl⟩, rfl⟩
      exact .loadReg hd hs
    · intro h
      cases h with
      | loadReg hd hs => simp [hd, hs]
  | loadOffset dest base offset =>
    simp only [lowerStatement, runs_check_bind, runs_comment_bind, runs_code, machineReg_eq_ok]
    constructor
    · rintro ⟨_, ⟨hd, rfl⟩, _, ⟨hb, rfl⟩, _, ⟨ho, rfl⟩, _, ⟨rfl, rfl⟩, rfl⟩
      exact .loadOffset hd hb ho
    · intro h
      cases h with
      | loadOffset hd hb ho => simp [hd, hb, ho]
  | store name src =>
    simp only [lowerStatement, storeVariable, runs_check_bind, machineReg_eq_ok]
    constructor
    · rintro ⟨_, ⟨hd, rfl⟩, x, hx, h⟩
      cases x with
      | global =>
        simp only [runs_comment_bind, runs_storeGlobal] at h
        obtain ⟨_, ⟨rfl, rfl⟩, rfl⟩ := h
        exact .storeGlobal hd (resolve_eq_global.1 hx)
      | slot i =>
        simp only [runs_comment_bind, runs_code] at h
        obtain ⟨_, ⟨rfl, rfl⟩, rfl⟩ := h
        exact .storeSlot hd hx
    · intro h
      cases h with
      | storeGlobal hd h =>
        refine ⟨_, ⟨hd, rfl⟩, .global, resolve_eq_global.2 h, ?_⟩
        simp [runs_comment_bind, runs_storeGlobal]
      | storeSlot hd h =>
        refine ⟨_, ⟨hd, rfl⟩, _, h, ?_⟩
        simp [runs_comment_bind]
  | storeReg addr src =>
    simp only [lowerStatement, runs_check_bind, runs_comment_bind, runs_code, machineReg_eq_ok]
    constructor
    · rintro ⟨_, ⟨ha, rfl⟩, _, ⟨hs, rfl⟩, _, ⟨rfl, rfl⟩, rfl⟩
      exact .storeReg ha hs
    · intro h
      cases h with
      | storeReg ha hs => simp [ha, hs]
  | storeOffset base offset value =>
    simp only [lowerStatement, runs_check_bind, runs_comment_bind, runs_code, machineReg_eq_ok]
    constructor
    · rintro ⟨_, ⟨hb, rfl⟩, _, ⟨ho, rfl⟩, _, ⟨hv, rfl⟩, _, ⟨rfl, rfl⟩, rfl⟩
      exact .storeOffset hb ho hv
    · intro h
      cases h with
      | storeOffset hb ho hv => simp [hb, ho, hv]
  | set dest value =>
    simp only [lowerStatement, runs_check_bind, runs_comment_bind, machineReg_eq_ok,
      literalValue_eq_ok, runs_setConstant]
    constructor
    · rintro ⟨_, ⟨hd, rfl⟩, v, hv, _, ⟨hs, rfl, rfl⟩ | ⟨hs, hw, rfl, rfl⟩, rfl⟩
      · exact .setSmall hd hv hs
      · exact .setWide hd hv hs hw
    · intro h
      cases h with
      | setSmall hd hv hs => exact ⟨_, ⟨hd, rfl⟩, _, hv, _, .inl ⟨hs, rfl, rfl⟩, rfl⟩
      | setWide hd hv hs hw => exact ⟨_, ⟨hd, rfl⟩, _, hv, _, .inr ⟨hs, hw, rfl, rfl⟩, rfl⟩
  | shiftLeft dest src amount =>
    simp only [lowerStatement, runs_check_bind, runs_comment_bind, runs_codes, machineReg_eq_ok,
      shiftAmount_eq_ok]
    constructor
    · rintro ⟨_, ⟨hd, rfl⟩, _, ⟨hs, rfl⟩, k, ⟨hv, hk⟩, _, ⟨rfl, rfl⟩, rfl⟩
      exact .shiftLeft hd hs hv hk
    · intro h
      cases h with
      | shiftLeft hd hs hv hk =>
        exact ⟨_, ⟨hd, rfl⟩, _, ⟨hs, rfl⟩, _, ⟨hv, hk⟩, _, ⟨rfl, rfl⟩, rfl⟩
  | call callee args out => exact runs_lowerCall
  | nop =>
    simp only [lowerStatement, runs_code]
    constructor
    · rintro ⟨rfl, rfl⟩; exact .nop
    · intro h; cases h; exact ⟨rfl, rfl⟩
  | declare name =>
    simp only [lowerStatement, runs_pure]
    constructor
    · rintro ⟨rfl, rfl, -⟩; exact .declare
    · intro h; cases h; simp
  | leave =>
    simp only [lowerStatement, runs_fail, false_iff]
    intro h
    cases h

end Runs

/-! ### Labels that wait -/

theorem waiting_of_loaded {sc : Scope} {a : Argument} {n t : Nat} {es : List Emission}
    (h : Loaded sc a n es t) (w : Option Text) : waiting w es = none := by
  cases h <;> rfl

theorem waiting_of_passed {sc : Scope} {k n t : Nat} {args : List Argument} {es : List Emission}
    (h : Passed sc k args n es t) : waiting none es = none := by
  induction h with
  | nil => rfl
  | cons ha _ ih => rw [waiting_append, waiting_of_loaded ha]; exact ih

/-! ### Labels that are made up -/

/-- The labels with the numbers from `n` up to `t`. -/
def generatedFrom (n t : Nat) : List Text := (List.range' n (t - n)).map Label.generated

theorem generatedFrom_self (n : Nat) : generatedFrom n n = [] := by simp [generatedFrom]

theorem generatedFrom_append {n m t : Nat} (hnm : n ≤ m) (hmt : m ≤ t) :
    generatedFrom n m ++ generatedFrom m t = generatedFrom n t := by
  have h : List.range' n (m - n) ++ List.range' m (t - m) = List.range' n (t - n) := by
    have hm : n + 1 * (m - n) = m := by omega
    have ht : m - n + (t - m) = t - n := by omega
    rw [← ht, ← List.range'_append, hm]
  rw [generatedFrom, generatedFrom, generatedFrom, ← h, List.map_append]

theorem generatedFrom_add (n k : Nat) :
    generatedFrom n (n + k) = (List.range' n k).map Label.generated := by
  rw [generatedFrom, Nat.add_sub_cancel_left]

theorem names_map_code (is : List Instruction) : names (is.map .code) = [] := by
  induction is with
  | nil => rfl
  | cons i is ih => simpa using ih

theorem names_embedding (dest : Reg) (word : Instruction) (n : Nat) :
    (names (embedding dest word n)).Perm (generatedFrom n (n + 2)) := by
  rw [generatedFrom_add]
  exact .swap (Label.generated n) (Label.generated (n + 1)) []

theorem names_storing (name : Text) (src : Reg) (n : Nat) :
    (names (storing name src n)).Perm (generatedFrom n (n + 3)) := by
  rw [generatedFrom_add]
  exact List.perm_append_singleton (Label.generated n)
    [Label.generated (n + 1), Label.generated (n + 2)]

theorem names_entering (callee : Text) (n : Nat) :
    (names (entering callee n) ++ [Label.generated (n + 1)]).Perm (generatedFrom n (n + 3)) := by
  rw [generatedFrom_add]
  exact (List.Perm.swap (Label.generated (n + 1)) (Label.generated (n + 2)) []).cons _

theorem Loaded.names_perm {sc : Scope} {a : Argument} {n t : Nat} {es : List Emission}
    (h : Loaded sc a n es t) : n ≤ t ∧ (names es).Perm (generatedFrom n t) := by
  cases h with
  | global h =>
    refine ⟨by omega, ?_⟩
    rw [names_append]
    simpa using names_embedding _ _ _
  | slot h => exact ⟨Nat.le_refl _, by simp [generatedFrom_self]⟩
  | small h hv => exact ⟨Nat.le_refl _, by simp [generatedFrom_self]⟩
  | wide h hv hw => exact ⟨by omega, names_embedding _ _ _⟩
  | register h hr => exact ⟨Nat.le_refl _, by simp [generatedFrom_self]⟩

theorem Passed.names_perm {sc : Scope} {k : Nat} {args : List Argument} {n t : Nat}
    {es : List Emission} (h : Passed sc k args n es t) :
    n ≤ t ∧ (names es).Perm (generatedFrom n t) := by
  induction h with
  | nil => exact ⟨Nat.le_refl _, by simp [generatedFrom_self]⟩
  | cons ha _ ih =>
    obtain ⟨hnm, hp⟩ := ha.names_perm
    refine ⟨Nat.le_trans hnm ih.1, ?_⟩
    rw [names_append, names_code, ← generatedFrom_append hnm ih.1]
    exact hp.append ih.2

theorem names_saving (n : Nat) : names (saving n) = [] := rfl

theorem names_restoring (n : Nat) (out : Option Reg) : names (restoring n out) = [] := by
  rw [restoring, List.cons_append, names_code, names_append]
  have h : ∀ l : List (Reg × Nat),
      names (l.map fun (r, slot) => .code (.loadSlot r .r6 slot)) = [] := by
    intro l
    induction l with
    | nil => rfl
    | cons x l ih => simpa using ih
  rw [h]
  rfl

/-- **A statement defines each label that it makes up once**, and besides these only the label
that it marks. -/
theorem Lowered.names_perm {sc : Scope} {st : Statement} {n t : Nat} {es : List Emission}
    (h : Lowered sc st n es t) :
    n ≤ t ∧ (names es).Perm (generatedFrom n t ++ st.labels.map (Label.user sc.function)) := by
  cases h with
  | loadGlobal hd h =>
    refine ⟨by omega, ?_⟩
    simp only [Statement.labels, List.map_nil, List.append_nil, List.cons_append, names_comment,
      names_append, names_code, names_nil]
    exact names_embedding _ _ _
  | addrGlobal hd h =>
    refine ⟨by omega, ?_⟩
    simpa [Statement.labels] using names_embedding _ _ _
  | storeGlobal hs h =>
    refine ⟨by omega, ?_⟩
    simpa [Statement.labels] using names_storing _ _ _
  | setWide hd h hv hw =>
    refine ⟨by omega, ?_⟩
    simpa [Statement.labels] using names_embedding _ _ _
  | shiftLeft hd hs h hk =>
    refine ⟨Nat.le_refl _, ?_⟩
    simp [Statement.labels, generatedFrom_self, names_map_code]
  | call hc ha =>
    obtain ⟨hnt, hp⟩ := ha.names_perm
    refine ⟨by omega, ?_⟩
    have hremark : names (argumentsRemark ‹_›) = [] := by
      unfold argumentsRemark
      split <;> rfl
    simp only [Statement.labels, List.map_nil, List.append_nil, names_append, names_comment,
      List.cons_append, List.nil_append, names_nil, names_saving, hremark, names_label,
      Label.isEmpty_generated, names_restoring]
    rw [← generatedFrom_append hnt (Nat.le_add_right _ 3)]
    simpa using hp.append (names_entering _ _)
  | label => exact ⟨Nat.le_refl _, by simp [Statement.labels, generatedFrom_self]⟩
  | _ => exact ⟨Nat.le_refl _, by simp [Statement.labels, generatedFrom_self]⟩

end Lowering

end StumpGen
