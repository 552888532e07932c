import StumpGen.Proofs.Reporting
import Mathlib.Algebra.GroupWithZero.Nat

/-!
# The size of an image

How many words a program takes can be told without compiling it (`Program.size`): each statement has
a cost, each global takes the words of its data, and the fixed parts take eight words.  What makes
this more than a sum is the label that waits for a word.  A global without data, and a function that
starts with a label of its own, leave their label to a `nop` that nobody has asked for.

So the words are counted together with the label that waits (`Grows`).  A label makes room for one
word when it comes, and the next word takes that room.  Counted like this, a global and a function
grow the image by the same amount wherever they stand.

* `Lowered.makes` : what a statement adds, with or without a label that waits.
* `grows_global`, `grows_function` : what an element adds.
* `image_size` : **the size of an image, in closed form**.  It does not depend on the order of the
  elements, and the warning about it is given exactly if it exceeds the capacity.
-/

namespace StumpGen

open Assembly Lowering Emitter

/-! ### Costs -/

/-- The value of a literal as a number of words or steps; zero if it has none. -/
def Literal.amount (l : Literal) : Nat :=
  match l.value with
  | .ok v => v.toNat
  | .error _ => 0

/-- The number of words of some data. -/
def Data.size : Data → Nat
  | .array values => values.length
  | .block size => size.amount
  | .literal _ => 1
  | .string text => text.composed.runes.length + 1

/-- The number of words that pass an argument. -/
def Argument.cost (p : Program) : Argument → Nat
  | .identifier name => if p.globals.contains name then 5 else 6
  | .literal value => if value.FitsIn (-16) 15 then 2 else 4
  | .register _ => 2

/-- The number of words of a statement. -/
def Statement.cost (p : Program) : Statement → Nat
  | .declare _ => 0
  | .load _ name => if p.globals.contains name then 4 else 1
  | .loadAddr _ name => if p.globals.contains name then 3 else 1
  | .store name _ => if p.globals.contains name then 7 else 1
  | .set _ value => if value.FitsIn (-16) 15 then 1 else 3
  | .shiftLeft _ _ amount => max 1 amount.amount
  | .call _ args out =>
    (if [Register.r1, .r2, .r3, .r4, .lr].contains out then 18 else 19)
      + (args.map (Argument.cost p)).sum
  | _ => 1

/-- The number of words that the label of a function takes for itself: one if the first statement
behind the declarations is a label too. -/
def padding : List Statement → Nat
  | .declare _ :: sts => padding sts
  | .label _ :: _ => 1
  | _ => 0

/-- The number of words of an element. -/
def Element.size (p : Program) : Element → Nat
  | .global _ data => max 1 data.size
  | .function f => 1 + padding f.body + (f.body.map (Statement.cost p)).sum

/-- **The number of words of a program**: those of its elements, and eight for the bootstrap and the
stack. -/
def Program.size (p : Program) : Nat := 8 + (p.map (Element.size p)).sum

/-! ### Words and waiting labels -/

namespace Assembly

/-- While `w` waits, the emissions `es` make `k` words, and behind them `w'` waits. -/
def Makes (w : Option Text) (es : List Emission) (k : Nat) (w' : Option Text) : Prop :=
  (wordsFrom w es).length = k ∧ waiting w es = w'

theorem Makes.append {w v u : Option Text} {es fs : List Emission} {k m : Nat}
    (h : Makes w es k v) (h' : Makes v fs m u) : Makes w (es ++ fs) (k + m) u := by
  obtain ⟨rfl, rfl⟩ := h
  obtain ⟨rfl, rfl⟩ := h'
  exact ⟨by rw [wordsFrom_append, List.length_append], waiting_append w es fs⟩

theorem makes_codes (w : Option Text) {is : List Instruction} (h : is ≠ []) :
    Makes w (is.map .code) is.length none := by
  cases is with
  | nil => exact absurd rfl h
  | cons i is =>
    refine ⟨?_, ?_⟩
    · rw [List.map_cons, wordsFrom_code, wordsFrom_map_code, List.length_cons, List.length_map,
        List.length_cons]
    · rw [List.map_cons, waiting, waiting_map_code]

/-- While `w` waits, the emissions `es` make room for `k` words.  A label that waits behind them has
made room for a word that is still to come, and if `w` waits there was room for a word before. -/
def Grows (w : Option Text) (es : List Emission) (k : Nat) : Prop :=
  (wordsFrom w es).length + (waiting w es).toList.length = w.toList.length + k

theorem Grows.append {w : Option Text} {es fs : List Emission} {k m : Nat} (h : Grows w es k)
    (h' : Grows (waiting w es) fs m) : Grows w (es ++ fs) (k + m) := by
  rw [Grows, wordsFrom_append, waiting_append, List.length_append]
  rw [Grows] at h h'
  omega

theorem Makes.grows {w : Option Text} {es : List Emission} {k m : Nat} (h : Makes w es k none)
    (hk : k = w.toList.length + m) : Grows w es m := by
  rw [Grows, h.1, h.2, hk]
  rfl

end Assembly

namespace Lowering

/-! ### Statements -/

theorem not_fitsIn {l : Literal} {v : Int} (h : l.value = .ok v)
    (hv : ¬ (minImm ≤ v ∧ v ≤ maxImm)) : ¬ l.FitsIn (-16) 15 := by
  rintro ⟨v', h', hv'⟩
  cases h.symm.trans h'
  exact hv hv'

theorem length_doublings (dest src : Reg) (k : Nat) : (doublings dest src k).length = max 1 k := by
  cases k with
  | zero => rfl
  | succ k =>
    rw [doublings, List.length_cons, List.length_replicate]
    omega

theorem doublings_ne_nil (dest src : Reg) (k : Nat) : doublings dest src k ≠ [] := by
  rw [← List.length_pos_iff, length_doublings]
  omega

theorem makes_gap (w : Option Text) (a : Bool) : Makes w (gap a) 0 w := by
  cases a <;> exact ⟨rfl, rfl⟩

section Statement

variable {sc : Scope} {p : Program} {f : Function} (hsc : sc.IsOf p f)

include hsc

theorem contains_of_isGlobal {name : Text} (h : sc.symbols.isGlobal name = true) :
    p.globals.contains name = true := by
  simpa using (hsc.global name).1 h

theorem not_contains_of_slot {name : Text} {i : Nat} (h : sc.resolve name = .ok (.slot i)) :
    p.globals.contains name = false := by
  have hn := (resolve_eq_slot.1 h).1
  by_contra hc
  rw [Bool.not_eq_false, List.contains_iff_mem, ← hsc.global, hn] at hc
  cases hc

/-- An argument is loaded, and then it is stored. -/
theorem Loaded.makes {a : Argument} {n t : Nat} {es : List Emission} (h : Loaded sc a n es t)
    (i : Instruction) : Makes none (es ++ [.code i]) (a.cost p) none := by
  cases h with
  | global h =>
    rw [Argument.cost, if_pos (contains_of_isGlobal hsc h)]
    exact ⟨by simp [embedding], rfl⟩
  | slot h =>
    rw [Argument.cost, not_contains_of_slot hsc h]
    exact ⟨rfl, rfl⟩
  | small h hv =>
    rw [Argument.cost, if_pos ⟨_, h, hv⟩]
    exact ⟨rfl, rfl⟩
  | wide h hv hw =>
    rw [Argument.cost, if_neg (not_fitsIn h hv)]
    exact ⟨by simp [embedding], rfl⟩
  | register h hr => exact ⟨rfl, rfl⟩

theorem Passed.makes {k n t : Nat} {args : List Argument} {es : List Emission}
    (h : Passed sc k args n es t) : Makes none es (args.map (Argument.cost p)).sum none := by
  induction h with
  | nil => exact ⟨rfl, rfl⟩
  | @cons k _ _ _ es _ fs _ ha _ ih =>
    have hfirst := Loaded.makes hsc ha (.storeSlot .r1 .r6 k)
    rw [List.append_cons, List.map_cons, List.sum_cons]
    exact hfirst.append ih

/-- Besides its arguments a call takes 7 words that save the registers, 5 that enter the callee, and
7 that restore the registers, or 6 if one of them is kept. -/
theorem makes_call {callee : Text} {args : List Argument} {out : Register} {n t : Nat}
    {es : List Emission} (ha : Passed sc 0 args n es t) (w : Option Text) (c₁ c₂ c₃ c₄ : Text) :
    Makes w ([.comment c₁, .comment c₂] ++ saving sc.frame.length ++ argumentsRemark args ++ es
        ++ .comment c₃ :: entering callee t ++ [.comment c₄, .label (Label.generated (t + 1))]
        ++ restoring sc.frame.length (keptReg out))
      ((Statement.call callee args out).cost p) none := by
  have hsaving : Makes w ([.comment c₁, .comment c₂] ++ saving sc.frame.length) 7 none := ⟨rfl, rfl⟩
  have hremark : Makes none (argumentsRemark args) 0 none := by
    unfold argumentsRemark; split <;> exact ⟨rfl, rfl⟩
  have hentering : Makes none (.comment c₃ :: entering callee t) 5 none :=
    ⟨by simp [entering], rfl⟩
  have hresume : Makes none [.comment c₄, .label (Label.generated (t + 1))] 0
      (some (Label.generated (t + 1))) := ⟨by simp, by simp [waiting]⟩
  have hrestoring : Makes (some (Label.generated (t + 1)))
      (restoring sc.frame.length (keptReg out))
      (if [Register.r1, .r2, .r3, .r4, .lr].contains out then 6 else 7) none := by
    cases out <;> exact ⟨rfl, rfl⟩
  have hall := ((((hsaving.append hremark).append (Passed.makes hsc ha)).append hentering).append
    hresume).append hrestoring
  have hcost : (Statement.call callee args out).cost p =
      7 + 0 + (args.map (Argument.cost p)).sum + 5 + 0 +
        (if [Register.r1, .r2, .r3, .r4, .lr].contains out then 6 else 7) := by
    rw [Statement.cost]
    split <;> omega
  rw [hcost]
  exact hall

/-- **What a statement adds** unless it declares a name.  A label that waits is taken by its first
word, but a mark has a label of its own. -/
theorem Lowered.makes {st : Statement} {n t : Nat} {es : List Emission} (h : Lowered sc st n es t)
    (hl : st.locals = []) (w : Option Text) :
    Makes w es (w.toList.length * padding [st] + st.cost p) none := by
  have hlift {k : Nat} (hp : padding [st] = 0) (hm : Makes w es k none) (hk : st.cost p = k) :
      Makes w es (w.toList.length * padding [st] + st.cost p) none := by
    rwa [hp, hk, Nat.mul_zero, Nat.zero_add]
  cases h with
  | loadGlobal hd h | addrGlobal hd h =>
    exact hlift rfl ⟨by simp [embedding], rfl⟩ (if_pos (contains_of_isGlobal hsc h))
  | storeGlobal hs h =>
    exact hlift rfl ⟨by simp [storing], rfl⟩ (if_pos (contains_of_isGlobal hsc h))
  | loadSlot hd h | addrSlot hd h | storeSlot hd h =>
    exact hlift rfl ⟨rfl, rfl⟩ (if_neg (Bool.not_eq_true _ ▸ not_contains_of_slot hsc h))
  | setSmall hd h hv => exact hlift rfl ⟨rfl, rfl⟩ (if_pos ⟨_, h, hv⟩)
  | setWide hd h hv hw => exact hlift rfl ⟨by simp [embedding], rfl⟩ (if_neg (not_fitsIn h hv))
  | shiftLeft hd hs h hk =>
    refine hlift rfl (makes_codes w (doublings_ne_nil _ _ _)) ?_
    rw [Statement.cost, Literal.amount, h, length_doublings]
    rfl
  | call hc ha => exact hlift rfl (makes_call hsc ha w _ _ _ _) rfl
  | label =>
    refine ⟨?_, rfl⟩
    rw [wordsFrom_comment, wordsFrom_label, List.length_append, List.length_map]
    simp [padding, Statement.cost]
  | declare => cases hl
  | _ => exact hlift rfl ⟨rfl, rfl⟩ rfl

/-- A body and the way back.  The label that waits is taken by the first word, unless the body
starts with a label of its own. -/
theorem runs_lowerBody_makes {k : Nat} {a : Bool} {sts : List Statement} {n t : Nat}
    {es : List Emission} {u : Unit} (h : Runs (lowerBody sc k a sts) n es t u) (w : Option Text) :
    Makes w (es ++ functionTail f)
      (w.toList.length * padding sts + (sts.map (Statement.cost p)).sum + 1) none := by
  induction sts generalizing k a n es w with
  | nil =>
    obtain ⟨rfl, -⟩ := runs_lowerBody_nil.1 h
    exact ⟨rfl, rfl⟩
  | cons st sts ih =>
    obtain ⟨es₁, m, es₂, h₁, h₂, rfl⟩ := runs_lowerBody_cons.1 h
    rw [List.append_assoc]
    by_cases hl : st.locals = []
    · have hst := (makes_gap w a).append (Lowered.makes hsc h₁ hl w)
      have hp : padding (st :: sts) = padding [st] := by
        cases st <;> first | rfl | cases hl
      convert hst.append (ih h₂ none) using 1
      rw [hp, List.map_cons, List.sum_cons, Option.toList_none, List.length_nil]
      omega
    · obtain ⟨name, rfl⟩ : ∃ name, st = .declare name := by
        cases st <;> simp_all [Statement.locals]
      cases h₁
      convert (makes_gap w a).append (ih h₂ w) using 1
      · rw [List.append_nil]
      · rw [padding, List.map_cons, List.sum_cons, Statement.cost]
        omega

end Statement

/-! ### Elements -/

theorem grows_global (w : Option Text) (name : Text) (words : List Int) :
    Grows w (globalEmissions name words) (max 1 words.length) := by
  have hhead : Makes w [.blank, .comment ("Global " ++ name), .label (Label.global name)]
      w.toList.length (some (Label.global name)) := by
    refine ⟨?_, rfl⟩
    simp
  by_cases hw : words = []
  · subst hw
    rw [globalEmissions, List.map_nil, List.map_nil, List.append_nil, Grows, hhead.1, hhead.2]
    rfl
  · have hcodes : Makes (some (Label.global name)) ((words.map Instruction.data).map .code)
        (words.map Instruction.data).length none :=
      makes_codes _ (by simpa using hw)
    have hpos := List.length_pos_iff.2 hw
    refine (hhead.append hcodes).grows ?_
    rw [List.length_map]
    omega

theorem grows_function {s : Symbols} {p : Program} {f : Function}
    (hsc : (Scope.ofFunction s f).IsOf p f) {n t : Nat} {es : List Emission} {u : Unit}
    (h : Runs (lowerFunction s f) n es t u) (w : Option Text) :
    Grows w es (Element.size p (.function f)) := by
  obtain ⟨body, hb, rfl⟩ := runs_lowerFunction.1 h
  have hhead : Makes w (functionHead f) w.toList.length (some (Label.function f.name)) := by
    refine ⟨?_, rfl⟩
    simp [functionHead]
  rw [List.append_assoc]
  refine (hhead.append (runs_lowerBody_makes hsc hb _)).grows ?_
  rw [Element.size, Option.toList_some, List.length_singleton]
  omega

theorem length_arrayWords {ls : List Literal} (h : (arrayWords ls).2 = none) :
    (arrayWords ls).1.length = ls.length := by
  induction ls with
  | nil => rfl
  | cons l ls ih =>
    rw [arrayWords] at h ⊢
    cases hd : dataWord l with
    | error e => simp [hd] at h
    | ok v =>
      simp only [hd] at h ⊢
      rw [List.length_cons, List.length_cons, ih h]

theorem length_stringWords {name : Text} {rs : List Rune} (h : (stringWords name rs).2 = none) :
    (stringWords name rs).1.length = rs.length + 1 := by
  induction rs with
  | nil => rfl
  | cons r rs ih =>
    rw [stringWords] at h ⊢
    split at h
    · rename_i hr
      rw [if_pos hr, List.length_cons, List.length_cons, ih h]
    · cases h

theorem length_dataWords {name : Text} {data : Data} (h : (dataWords name data).2 = none) :
    (dataWords name data).1.length = data.size := by
  cases data with
  | array values => exact length_arrayWords h
  | string text => exact length_stringWords h
  | literal value =>
    rw [dataWords] at h ⊢
    cases hd : dataWord value with
    | error e => simp [hd] at h
    | ok v => rfl
  | block size =>
    rw [dataWords] at h ⊢
    cases hd : dataWord size with
    | error e => simp [hd] at h
    | ok v =>
      simp only [hd] at h ⊢
      split at h
      · cases h
      · rename_i hv
        rw [if_neg hv, List.length_replicate, Data.size, Literal.amount, (dataWord_eq_ok.1 hd).1]

end Lowering

/-! ### Programs -/

/-- The number of words of the element's data. -/
def Element.dataSize : Element → Nat
  | .global _ data => max 1 data.size
  | .function _ => 0

theorem sum_size (p q : Program) :
    (q.map (Element.size p)).sum = (q.map Element.dataSize).sum
      + (q.functions.map fun f => Element.size p (.function f)).sum := by
  induction q with
  | nil => rfl
  | cons e q ih =>
    rw [List.map_cons, List.map_cons, List.sum_cons, List.sum_cons, ih]
    cases e with
    | global name data =>
      have hfs : Program.functions (.global name data :: q) = Program.functions q := rfl
      rw [hfs, Element.size, Element.dataSize]
      omega
    | function f =>
      have hfs : Program.functions (.function f :: q) = f :: Program.functions q := rfl
      rw [hfs, List.map_cons, List.sum_cons, Element.dataSize]
      omega

namespace Lowering

/-- What the first pass adds, whatever waits in front of it. -/
theorem grows_collect {p : Program} {s s' : Symbols} {es : List Emission} {u : Unit}
    (h : Runs (collect p) s es s' u) (w : Option Text) :
    Grows w es (p.map Element.dataSize).sum := by
  induction p generalizing s es w with
  | nil =>
    simp only [collect, runs_pure] at h
    obtain ⟨rfl, -, -⟩ := h
    exact Nat.add_comm 0 w.toList.length
  | cons e p ih =>
    simp only [collect, runs_bind] at h
    obtain ⟨es₁, s₁, _, es₂, he, hp, rfl⟩ := h
    rw [List.map_cons, List.sum_cons]
    refine Grows.append ?_ (ih hp _)
    cases e with
    | function f =>
      obtain ⟨-, rfl, -⟩ := runs_collectFunction.1 he
      exact Nat.add_comm 0 w.toList.length
    | global name data =>
      obtain ⟨-, hw, rfl, -⟩ := runs_collectGlobal.1 he
      rw [Element.dataSize, ← length_dataWords hw]
      exact grows_global w name _

/-- What the second pass adds, whatever waits in front of it. -/
theorem grows_lowerFunctions {p : Program} {s : Symbols}
    (hsc : ∀ f, (Scope.ofFunction s f).IsOf p f) {fs : List Function} {n t : Nat}
    {es : List Emission} {u : Unit} (h : Runs (lowerFunctions s fs) n es t u) (w : Option Text) :
    Grows w es (fs.map fun f => Element.size p (.function f)).sum := by
  induction fs generalizing n es w with
  | nil =>
    simp only [lowerFunctions, runs_pure] at h
    obtain ⟨rfl, -, -⟩ := h
    exact Nat.add_comm 0 w.toList.length
  | cons f fs ih =>
    simp only [lowerFunctions, runs_bind] at h
    obtain ⟨es₁, m, _, es₂, hf, hfs, rfl⟩ := h
    rw [List.map_cons, List.sum_cons]
    exact (grows_function (hsc f) hf w).append (ih hfs _)

end Lowering

/-- All emissions of a compilation make as many words as the program has. -/
theorem Passes.length_words {p : Program} (x : Passes p) (o : Options) :
    (wordsFrom none (x.emissions o)).length = p.size := by
  have hprologue : Grows none (Compilation.prologue o.effective) 7 := rfl
  have hepilogue (w : Option Text) : Grows w Compilation.epilogue 1 := by
    simp [Grows, Compilation.epilogue, waiting]
  have hall := ((hprologue.append (grows_collect x.collected _)).append
    (grows_lowerFunctions (isOf_ofFunction x.collected) x.generated _)).append (hepilogue _)
  rw [← Passes.emissions, Grows, x.waiting_emissions] at hall
  rw [Program.size, sum_size]
  simp only [Option.toList_none, List.length_nil, Nat.zero_add, Nat.add_zero] at hall
  omega

theorem compile_instructions {p : Program} {o : Options} (h : (compile p o).fault = none) :
    (compile p o).stats.instructions = p.size := by
  obtain ⟨x, hx⟩ := compile_emissions h
  have himage : (compile p o).listing.image = wordsFrom none (x.emissions o) := by
    rw [hx, Listing.image_emitAll]
    rfl
  rw [Compilation.stats, Listing.words_eq_length_image, himage, x.length_words]

theorem compile_capacity (p : Program) (o : Options) :
    (compile p o).stats.capacity = o.effective.capacity := by
  rw [Compilation.stats, compile]
  cases (collect p {}).result with
  | error e => rfl
  | ok u =>
    cases hf : Compilation.firstFault (generate (collect p {}).state 0 (Program.functions p)) <;>
      simp only [hf]

/-! ### The order of the elements -/

section Order

variable {p q : Program} (h : p.Perm q)

include h

theorem Program.globals_perm : p.globals.Perm q.globals := h.filterMap _

theorem Program.functions_perm : p.functions.Perm q.functions := h.filterMap _

theorem contains_globals (name : Text) : p.globals.contains name = q.globals.contains name := by
  rw [Bool.eq_iff_iff, List.contains_iff_mem, List.contains_iff_mem]
  exact (Program.globals_perm h).mem_iff

theorem Argument.cost_perm : Argument.cost p = Argument.cost q := by
  funext a
  cases a with
  | identifier name => rw [cost, cost, contains_globals h]
  | literal value => rfl
  | register reg => rfl

theorem Statement.cost_perm : Statement.cost p = Statement.cost q := by
  funext st
  cases st with
  | load dest name | loadAddr dest name => rw [cost, cost, contains_globals h]
  | store name src => rw [cost, cost, contains_globals h]
  | call callee args out => rw [cost, cost, Argument.cost_perm h]
  | _ => rfl

theorem Program.size_perm : p.size = q.size := by
  have hsize : Element.size p = Element.size q := by
    funext e
    cases e with
    | global name data => rfl
    | function f => rw [Element.size, Element.size, Statement.cost_perm h]
  rw [size, size, hsize, (h.map _).sum_nat]

theorem Function.reaches_perm {f : Function} {name : Text} (hr : f.Reaches p name) :
    f.Reaches q name :=
  hr.imp (Program.globals_perm h).mem_iff.1 id

theorem Argument.wellFormed_perm {f : Function} {a : Argument} (ha : a.WellFormed p f) :
    a.WellFormed q f := by
  cases a with
  | identifier name => exact Function.reaches_perm h ha
  | literal value => exact ha
  | register reg => exact ha

theorem Statement.wellFormed_perm {f : Function} {st : Statement} (hst : st.WellFormed p f) :
    st.WellFormed q f := by
  cases st with
  | load dest name | loadAddr dest name => exact hst.imp_right (Function.reaches_perm h)
  | store name src => exact hst.imp_right (Function.reaches_perm h)
  | call callee args out =>
    obtain ⟨⟨g, hg, hname⟩, hmany, hframe, hout, hargs⟩ := hst
    refine ⟨⟨g, (Program.functions_perm h).mem_iff.1 hg, hname⟩, hmany, hframe, hout, ?_⟩
    intro a ha
    exact Argument.wellFormed_perm h (hargs a ha)
  | _ => exact hst

theorem Program.wellFormed_perm (hp : p.WellFormed) : q.WellFormed where
  functions := ((functions_perm h).map _).nodup_iff.1 hp.functions
  globals := (globals_perm h).nodup_iff.1 hp.globals
  data e he := hp.data e (h.mem_iff.2 he)
  statements f hf st hst :=
    Statement.wellFormed_perm h (hp.statements f ((functions_perm h).mem_iff.2 hf) st hst)

end Order

/-! ### The size of an image -/

theorem Options.capacity_pos (o : Options) : 0 < o.effective.capacity := by
  rw [effective]
  by_cases h : o.capacity ≤ 0
  · simp [h, Stats.defaultCapacity]
  · simp only [h, ↓reduceIte]
    omega

theorem Program.mem_warnings_capacity {p : Program} {o : Options} (hp : p.WellFormed) :
    (∃ w ∈ p.warnings o, w.code = .capacityExceeded) ↔
      (compile p o).stats.isExceeded = true := by
  by_cases he : (compile p o).stats.isExceeded = true
  · refine iff_of_true ⟨Compilation.capacityWarning (compile p o).stats, ?_, rfl⟩ he
    simp [warnings, hp, he]
  · refine iff_of_false ?_ he
    rintro ⟨w, hw, hcode⟩
    -- only the warning about the entry is left, and it has a code of its own
    simp only [warnings, he, and_false, ↓reduceIte, List.append_nil, Bool.false_eq_true] at hw
    split at hw
    · rw [List.mem_singleton.1 hw] at hcode
      cases hcode
    · cases hw

/-- **The size of the image of a program that compiles**, whatever the options are.  The elements
can be reordered without a change of it, and there is a warning about it exactly if it exceeds the
capacity. -/
theorem image_size {p : Program} {o : Options} (h : (compile p o).fault = none) :
    (compile p o).stats.instructions = p.size ∧
      (∀ q, p.Perm q → ∀ o', (compile q o').fault = none ∧
        (compile q o').stats.instructions = (compile p o).stats.instructions) ∧
      ((∃ w ∈ (compile p o).warnings, w.code = .capacityExceeded) ↔
        o.effective.capacity < p.size) := by
  have hp := wellFormed_of_compile h
  refine ⟨compile_instructions h, fun q hq o' => ?_, ?_⟩
  · have hq' : (compile q o').fault = none :=
      compile_fault_eq_none.2 (Program.wellFormed_perm hq hp)
    rw [compile_instructions h, compile_instructions hq', Program.size_perm hq]
    exact ⟨hq', rfl⟩
  · rw [compile_warnings, Program.mem_warnings_capacity hp, Stats.isExceeded, Bool.and_eq_true,
      decide_eq_true_iff, decide_eq_true_iff, compile_capacity, compile_instructions h]
    exact and_iff_right o.capacity_pos

/-- A program with labels that nothing follows but another label: one is that of an empty global,
the other that of a function whose first word has a label of its own. -/
def crowded : Program :=
  [.global "void" (.array []),
   .function
    { name := "work", params := ["a", "b", "c", "d", "e"]
      body := [.declare "t", .label "top", .load .r1 "pad", .store "void" .r1,
        .shiftLeft .r1 .r1 (.ofToken "0"), .shiftLeft .r1 .r2 (.ofToken "3")] },
   .global "pad" (.block (.ofToken "3")),
   .function
    { name := "main"
      body := [.declare "x", .set .r1 (.ofToken "15"), .set .r1 (.ofToken "16"),
        .call "work" [.identifier "pad", .identifier "x", .literal (.ofToken "-16"),
          .literal (.ofToken "300"), .register .r2] .lr] }]

theorem image_size_crowded :
    (compile crowded { capacity := 71 }).stats.instructions = 72 ∧
      (compile crowded.reverse {}).fault = none ∧
      (compile crowded.reverse {}).stats.instructions = 72 ∧
      ∃ w ∈ (compile crowded { capacity := 71 }).warnings, w.code = .capacityExceeded := by
  have hfault : (compile crowded { capacity := 71 }).fault = none :=
    compile_fault_eq_none.2 (by decide)
  have hwords : crowded.size = 72 := by decide
  obtain ⟨hsize, horder, hwarning⟩ := image_size hfault
  rw [hwords] at hsize hwarning
  obtain ⟨hreverse, hsame⟩ := horder crowded.reverse (List.reverse_perm crowded).symm {}
  exact ⟨hsize, hreverse, hsame.trans hsize, hwarning.2 (by decide)⟩

end StumpGen
