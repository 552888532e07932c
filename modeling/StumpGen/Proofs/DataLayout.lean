import StumpGen.Proofs.Acceptance
import StumpGen.Proofs.Auditing
import Mathlib.Data.List.Forall2

/-!
# Where the data of globals stands

The first pass over a program emits the data of its globals, one after another.  A global without
words leaves its label waiting, and the label gets a `nop` only when the next label comes, from
another global, from the first function or from the stack.

* `Data.Holds` : the words of a global's data, from the program text alone.
* `dataBlock` : the words of the image for a global, the first of them with its label.
* `Displaces` : emissions that put a label in front of their first word, so that a label that
  waits in front of them gets a word of its own.  Every stretch of emissions that starts at a
  global or a function displaces.
* `wordsFrom_collect` : the first pass, in front of anything that displaces.

**Main theorem** (`data_layout`): the image is the bootstrap, the blocks of the globals in the order
of their declarations, and the code, which starts with another label.
-/

namespace StumpGen

open Assembly Lowering Emitter

/-! ### The data of a program -/

/-- The globals of a program with their data, in order. -/
def Program.declaredData (p : Program) : List (Text × Data) :=
  p.filterMap fun
    | .global name data => some (name, data)
    | .function _ => none

/-- The words that data stands for. -/
inductive Data.Holds : Data → List Int → Prop
  | array {values : List Literal} {ws : List Int}
      (h : List.Forall₂ (fun l v => l.value = .ok v) values ws) : Holds (.array values) ws
  | block {size : Literal} {k : Nat} (h : size.value = .ok (k : Int)) :
    Holds (.block size) (List.replicate k 0)
  | literal {value : Literal} {v : Int} (h : value.value = .ok v) : Holds (.literal value) [v]
  | string {text : Text} :
    Holds (.string text) (text.composed.runes.map (fun r => (r.code : Int)) ++ [0])

/-- Data stands for one list of words only. -/
theorem Data.Holds.unique {data : Data} {ws ws' : List Int} (h : data.Holds ws)
    (h' : data.Holds ws') : ws = ws' := by
  cases h with
  | array h =>
    cases h' with
    | array h' =>
      refine List.right_unique_forall₂' (fun l v v' hv hv' => ?_) h h'
      exact Except.ok.inj (hv.symm.trans hv')
  | block h =>
    cases h' with
    | block h' => rw [Int.ofNat.inj (Except.ok.inj (h.symm.trans h'))]
  | literal h =>
    cases h' with
    | literal h' => rw [Except.ok.inj (h.symm.trans h')]
  | string => cases h'; rfl

/-- The words of the image for a global: its words, or a `nop` if there are none. -/
def dataBlock (name : Text) : List Int → List (Option Text × Instruction)
  | [] => [(some (Label.global name), .nop)]
  | w :: ws => (some (Label.global name), .data w) :: ws.map fun v => (none, .data v)

namespace Lowering

theorem holds_arrayWords {ls : List Literal} (h : (arrayWords ls).2 = none) :
    List.Forall₂ (fun l v => l.value = .ok v) ls (arrayWords ls).1 := by
  induction ls with
  | nil => exact .nil
  | cons l ls ih =>
    rw [arrayWords] at h ⊢
    cases hd : dataWord l with
    | error e => simp [hd] at h
    | ok v =>
      simp only [hd] at h ⊢
      exact .cons (dataWord_eq_ok.1 hd).1 (ih h)

theorem stringWords_fst {name : Text} {rs : List Rune} (h : (stringWords name rs).2 = none) :
    (stringWords name rs).1 = rs.map (fun r => (r.code : Int)) ++ [0] := by
  induction rs with
  | nil => rfl
  | cons r rs ih =>
    rw [stringWords] at h ⊢
    split at h
    · rename_i hr
      rw [if_pos hr]
      exact congrArg (fun ws => (r.code : Int) :: ws) (ih h)
    · cases h

/-- **The words of a global** that the first pass accepts. -/
theorem holds_dataWords {name : Text} {data : Data} (h : (dataWords name data).2 = none) :
    data.Holds (dataWords name data).1 := by
  cases data with
  | array values => exact .array (holds_arrayWords h)
  | string text =>
    rw [dataWords, stringWords_fst h]
    exact .string
  | literal value =>
    rw [dataWords] at h ⊢
    cases hd : dataWord value with
    | error e => simp [hd] at h
    | ok v => exact .literal (dataWord_eq_ok.1 hd).1
  | block size =>
    rw [dataWords] at h ⊢
    cases hd : dataWord size with
    | error e => simp [hd] at h
    | ok v =>
      simp only [hd] at h ⊢
      split at h
      · cases h
      · rename_i hv
        have hnat : (v.toNat : Int) = v := Int.toNat_of_nonneg (Int.not_lt.1 hv)
        rw [if_neg hv]
        exact .block (hnat.symm ▸ (dataWord_eq_ok.1 hd).1)

end Lowering

/-! ### Labels that are displaced -/

namespace Assembly

/-- Whatever label waits in front of the emissions gets a `nop`. -/
def Displaces (es : List Emission) : Prop :=
  ∀ l, wordsFrom (some l) es = (some l, .nop) :: wordsFrom none es

/-- While a label waits, the next word has it, if there is one. -/
theorem wordsFrom_some (l : Text) (es : List Emission) :
    waiting (some l) es = some l ∨ ∃ i ws, wordsFrom (some l) es = (some l, i) :: ws := by
  induction es with
  | nil => exact .inl rfl
  | cons e es ih =>
    cases e with
    | label n => exact .inr ⟨_, _, rfl⟩
    | code i => exact .inr ⟨_, _, rfl⟩
    | comment t => exact ih
    | blank => exact ih
    | origin t => exact ih

end Assembly

namespace Lowering

theorem displaces_global (name : Text) (ws : List Int) (rest : List Emission) :
    Displaces (globalEmissions name ws ++ rest) := fun _ => rfl

/-- The block of a global, in front of another label. -/
theorem wordsFrom_global (name : Text) (ws : List Int) {rest : List Emission}
    (h : Displaces rest) :
    wordsFrom none (globalEmissions name ws ++ rest) =
      dataBlock name ws ++ wordsFrom none rest := by
  have hhead : wordsFrom none (globalEmissions name ws ++ rest) =
      wordsFrom (some (Label.global name)) ((ws.map Instruction.data).map .code ++ rest) := rfl
  rw [hhead]
  cases ws with
  | nil => exact h _
  | cons w ws =>
    rw [List.map_cons, List.map_cons, List.cons_append, wordsFrom_code, wordsFrom_append,
      wordsFrom_map_code, waiting_map_code, List.map_map]
    rfl

/-- **The first pass** in front of another label: the blocks of the globals, and again a stretch of
emissions that displaces. -/
theorem wordsFrom_collect {p : Program} {s s' : Symbols} {es rest : List Emission} {u : Unit}
    (h : Runs (collect p) s es s' u) (hr : Displaces rest) :
    Displaces (es ++ rest) ∧ ∃ contents : List (Text × List Int),
      List.Forall₂ (fun x y => x.1 = y.1 ∧ x.2.Holds y.2) p.declaredData contents ∧
      wordsFrom none (es ++ rest) =
        contents.flatMap (fun x => dataBlock x.1 x.2) ++ wordsFrom none rest := by
  induction p generalizing s es with
  | nil =>
    simp only [collect, runs_pure] at h
    obtain ⟨rfl, -, -⟩ := h
    exact ⟨hr, [], .nil, rfl⟩
  | cons e p ih =>
    simp only [collect, runs_bind] at h
    obtain ⟨es₁, s₁, _, es₂, he, hp, rfl⟩ := h
    obtain ⟨hd, contents, hc, hw⟩ := ih hp
    cases e with
    | function f =>
      obtain ⟨-, rfl, -⟩ := runs_collectFunction.1 he
      exact ⟨hd, contents, hc, hw⟩
    | global name data =>
      obtain ⟨-, hdata, rfl, -⟩ := runs_collectGlobal.1 he
      rw [List.append_assoc]
      refine ⟨displaces_global name _ _, (name, (dataWords name data).1) :: contents,
        .cons ⟨rfl, holds_dataWords hdata⟩ hc, ?_⟩
      rw [wordsFrom_global name _ hd, hw, List.flatMap_cons, List.append_assoc]

/-- **The second pass** and the stack: the first word behind the data has a label of its own. -/
theorem displaces_code {s : Symbols} {fs : List Function} {n t : Nat} {es : List Emission}
    {u : Unit} (h : Runs (lowerFunctions s fs) n es t u) :
    Displaces (es ++ Compilation.epilogue) ∧
      ∃ l i ws, wordsFrom none (es ++ Compilation.epilogue) = (some l, i) :: ws := by
  cases fs with
  | nil =>
    simp only [lowerFunctions, runs_pure] at h
    obtain ⟨rfl, -, -⟩ := h
    exact ⟨fun _ => rfl, _, _, _, rfl⟩
  | cons f fs =>
    rw [lowerFunctions, runs_bind] at h
    obtain ⟨_, _, _, es₂, hf, -, rfl⟩ := h
    obtain ⟨body, -, rfl⟩ := runs_lowerFunction.1 hf
    refine ⟨fun _ => rfl, Label.function f.name, ?_⟩
    have hhead : wordsFrom none (functionHead f ++ body ++ functionTail f ++ es₂
        ++ Compilation.epilogue) = wordsFrom (some (Label.function f.name))
          (body ++ functionTail f ++ es₂ ++ Compilation.epilogue) := rfl
    rw [hhead]
    refine (wordsFrom_some _ _).resolve_left ?_
    rw [waiting_append]
    rintro ⟨⟩

end Lowering

/-! ### Labels in front of the code -/

theorem labels_dataBlock (name : Text) (ws : List Int) :
    (dataBlock name ws).filterMap Prod.fst = [Label.global name] := by
  cases ws with
  | nil => rfl
  | cons w ws =>
    have hrest : (ws.map fun v => ((none : Option Text), Instruction.data v)).filterMap Prod.fst
        = [] := by
      simp [List.filterMap_map]
    simp only [dataBlock, List.filterMap_cons, hrest]

/-- No label in front of the code is that of a function. -/
theorem function_notMem_front (o : Options) (contents : List (Text × List Int)) (name : Text) :
    Label.function name ∉ (wordsFrom none (Compilation.prologue o)
      ++ contents.flatMap fun x => dataBlock x.1 x.2).filterMap Prod.fst := by
  have hboot : (wordsFrom none (Compilation.prologue o)).filterMap Prod.fst =
      [Label.stackPointer, Label.exit] := rfl
  intro h
  have hhead : (Label.function name).head? = some 70 := Label.head?_function name
  rw [List.filterMap_append, List.mem_append, hboot, List.mem_filterMap] at h
  rcases h with h | ⟨w, hw, hl⟩
  · revert hhead
    simp only [List.mem_cons, List.not_mem_nil, or_false] at h
    rcases h with h | h <;> simp [h]
  · obtain ⟨x, -, hx⟩ := List.mem_flatMap.1 hw
    have hmem : Label.function name ∈ (dataBlock x.1 x.2).filterMap Prod.fst :=
      List.mem_filterMap.2 ⟨w, hx, hl⟩
    rw [labels_dataBlock, List.mem_singleton] at hmem
    rw [hmem, Label.head?_global] at hhead
    cases hhead

/-! ### Labels in the text -/

/-- Whether a line of text has the label `g`. -/
def startsWithLabel (g line : Text) : Bool := line.take (g.length + 1) == g ++ " "

/-- The names and conditions of a program and the options hold nothing that breaks lines. -/
structure WellSpelled (p : Program) (o : Options) : Prop where
  names : ∀ n ∈ p.names, Name.isValid n = true
  conditions : ∀ c ∈ p.conditions, Name.isValid c = true
  entry : Name.isValid o.effective.entry = true
  origin : (10 : UInt8) ∉ o.effective.org

theorem startsWithLabel_iff {g line : Text} :
    startsWithLabel g line = true ↔ ∃ rest, line = g ++ 32 :: rest := by
  have hlen : (g ++ " " : Text).length = g.length + 1 := List.length_append
  rw [startsWithLabel, beq_iff_eq]
  constructor
  · intro h
    refine ⟨line.drop (g.length + 1), ?_⟩
    conv_lhs => rw [← List.take_append_drop (g.length + 1) line, h]
    rw [List.append_assoc]
    rfl
  · rintro ⟨rest, rfl⟩
    have hsplit : g ++ 32 :: rest = (g ++ " ") ++ rest := by
      rw [List.append_assoc]
      rfl
    rw [hsplit, ← hlen, List.take_left]

/-- A line has the label of a global exactly if it is the line of a word with that label. -/
theorem startsWithLabel_body {l : Line} {name : Text} (hn : Name.isValid name = true)
    (hl : ∀ lab i, l = .code lab i →
      (∀ x ∈ lab, Name.isValid x = true) ∧ i.text.head? ≠ some 71) :
    startsWithLabel (Label.global name) l.body = true ↔
      l.word?.bind Prod.fst = some (Label.global name) := by
  have hblank : ∀ {x : Text}, Name.isValid x = true → (32 : UInt8) ∉ x := fun hx hb =>
    absurd (Name.isByte_of_isValid hx 32 hb) (by decide)
  -- the labels of globals start with a byte of their own
  have hfirst : ∀ {t : Text}, t.head? ≠ some 71 →
      ¬ ∃ rest, t = Label.global name ++ 32 :: rest := by
    rintro _ ht ⟨rest, rfl⟩
    exact ht rfl
  rw [startsWithLabel_iff]
  cases l with
  | comment t | blank | origin t =>
    exact iff_of_false (hfirst (by rintro ⟨⟩)) (by simp [Line.word?])
  | code lab i =>
    obtain ⟨hlab, hi⟩ := hl lab i rfl
    cases lab with
    | none => exact iff_of_false (hfirst hi) (by simp [Line.word?])
    | some lab =>
      have hbody : (Line.code (some lab) i).body = lab ++ 32 :: i.text := by
        rw [Line.body, List.append_assoc]
        rfl
      rw [hbody]
      simp only [Line.word?, Option.bind_some, Option.some.injEq]
      constructor
      · rintro ⟨rest, h⟩
        exact (Text.append_cons_inj (hblank (hlab lab rfl))
          (hblank (Label.isValid_global hn)) h).1
      · rintro rfl
        exact ⟨_, rfl⟩

theorem head?_text_of_plain {C : Text → Prop} {i : Instruction} (h : i.Plain C) :
    i.text.head? ≠ some 71 := by
  cases i with
  | aluReg op s d a b sh => obtain ⟨rfl | rfl, -⟩ := h <;> rintro ⟨⟩
  | aluImm op s d a v => obtain ⟨rfl | rfl, -⟩ := h <;> rintro ⟨⟩
  | _ => rintro ⟨⟩

namespace WellSpelled

variable {p : Program} {o : Options} (hs : WellSpelled p o) (x : Passes p)

include hs

theorem plain_emissions : ∀ e ∈ x.behindOrigin o, e.Plain fun c => Name.isValid c = true :=
  x.plain o hs.names (by decide) hs.conditions hs.entry

theorem readable_lines : ∀ l ∈ linesFrom none (x.behindOrigin o), l.Readable :=
  readable_linesFrom (fun _ h => h) (by simp) (hs.plain_emissions x)

/-- The lines of the text are those of the words, behind some that are no words. -/
theorem split_text : ∃ others : List Line, (∀ l ∈ others, l.isCode = false) ∧
    Text.split 10 (Listing.emitAll {} (x.emissions o)).text =
      (others ++ linesFrom none (x.behindOrigin o)).map Line.body ++ [[]] := by
  obtain ⟨remarks, hremarks, htext⟩ := x.text_eq o
  refine ⟨remarks ++ [.origin o.effective.org], ?_, ?_⟩
  · simp only [List.mem_append, List.mem_singleton]
    rintro l (hl | rfl)
    · exact (hremarks l hl).2
    · rfl
  rw [htext, Audit.split_text (fun l hl => (hremarks l hl).1) hs.origin (hs.readable_lines x),
    List.append_assoc, List.singleton_append]

/-- The lines of the text with the label of a global are as many as the words with it. -/
theorem countP_startsWithLabel {name : Text} (hn : Name.isValid name = true) :
    (Text.split 10 (Listing.emitAll {} (x.emissions o)).text).countP
        (startsWithLabel (Label.global name)) =
      ((Listing.emitAll {} (x.emissions o)).image.filterMap Prod.fst).count
        (Label.global name) := by
  obtain ⟨others, hothers, hsplit⟩ := hs.split_text x
  have hother : (others.map Line.body).countP (startsWithLabel (Label.global name)) = 0 := by
    rw [List.countP_map, List.countP_eq_zero]
    intro l hl
    rw [Function.comp_apply, startsWithLabel_body hn (by rintro lab i rfl; cases hothers _ hl)]
    cases l with
    | code lab i => cases hothers _ hl
    | _ => simp [Line.word?]
  have hcode : ∀ l ∈ linesFrom none (x.behindOrigin o),
      startsWithLabel (Label.global name) l.body = true ↔
        (l.word?.bind Prod.fst == some (Label.global name)) = true := by
    intro l hl
    rw [beq_iff_eq]
    refine startsWithLabel_body hn ?_
    rintro lab i rfl
    have hword : (lab, i) ∈ wordsFrom none (x.behindOrigin o) :=
      List.mem_filterMap.2 ⟨_, hl, rfl⟩
    exact ⟨fun y hy => ((hs.readable_lines x _ hl).1 y hy).valid,
      head?_text_of_plain (plain_wordsFrom (hs.plain_emissions x) _ hword)⟩
  have hlast : [[]].countP (startsWithLabel (Label.global name)) = 0 := rfl
  calc (Text.split 10 (Listing.emitAll {} (x.emissions o)).text).countP
        (startsWithLabel (Label.global name))
      = (linesFrom none (x.behindOrigin o)).countP
          (startsWithLabel (Label.global name) ∘ Line.body) := by
        rw [hsplit, List.map_append, List.countP_append, List.countP_append, hother, hlast,
          List.countP_map, Nat.zero_add, Nat.add_zero]
    _ = (linesFrom none (x.behindOrigin o)).countP
          (fun l => l.word?.bind Prod.fst == some (Label.global name)) := List.countP_congr hcode
    _ = ((Listing.emitAll {} (x.emissions o)).image.filterMap Prod.fst).count
          (Label.global name) := by
        rw [x.image_eq, wordsFrom, List.filterMap_filterMap, List.count_filterMap]

end WellSpelled

/-- **Where the data of globals stands.**  The image of a program that compiles is the bootstrap of
7 words, the blocks of the globals in the order of their declarations and the code.  The first word
of the code has a label, so that each block ends where the next label stands.  The label of a global
names one word of the image, and one line of the text has it if the program is spelled well.  The
labels of functions stand in the code only. -/
theorem data_layout {p : Program} {o : Options} (h : (compile p o).fault = none) :
    ∃ (contents : List (Text × List Int)) (code : List (Option Text × Instruction)),
      List.Forall₂ (fun x y => x.1 = y.1 ∧ x.2.Holds y.2) p.declaredData contents ∧
      (compile p o).listing.image = wordsFrom none (Compilation.prologue o.effective)
        ++ contents.flatMap (fun x => dataBlock x.1 x.2) ++ code ∧
      (wordsFrom none (Compilation.prologue o.effective)).length = 7 ∧
      (∃ l i ws, code = (some l, i) :: ws) ∧
      (∀ name ∈ p.globals,
        ((compile p o).listing.image.filterMap Prod.fst).count (Label.global name) = 1 ∧
        (WellSpelled p o → (Text.split 10 (compile p o).text).countP
          (startsWithLabel (Label.global name)) = 1)) ∧
      (∀ name, Label.function name ∉ (wordsFrom none (Compilation.prologue o.effective)
        ++ contents.flatMap fun x => dataBlock x.1 x.2).filterMap Prod.fst) ∧
      ∀ f ∈ p.functions, Label.function f.name ∈ code.filterMap Prod.fst := by
  obtain ⟨x, hx⟩ := compile_emissions h
  obtain ⟨hdisplaces, hfirst⟩ := displaces_code x.generated
  obtain ⟨-, contents, hcontents, hwords⟩ := wordsFrom_collect x.collected hdisplaces
  have himage : (compile p o).listing.image = wordsFrom none (Compilation.prologue o.effective)
      ++ contents.flatMap (fun x => dataBlock x.1 x.2)
      ++ wordsFrom none (x.code ++ Compilation.epilogue) := by
    rw [hx, Listing.image_emitAll, Passes.emissions, List.append_assoc, List.append_assoc,
      wordsFrom_append, List.append_assoc, ← hwords]
    rfl
  refine ⟨contents, _, hcontents, himage, rfl, hfirst, ?_, function_notMem_front _ _, ?_⟩
  · intro name hname
    have hown : Label.global name ∈ x.ownLabels := by
      simp only [Passes.ownLabels, List.mem_append, List.mem_map]
      exact .inr (.inl ⟨name, hname, rfl⟩)
    have hle := x.count_label_image o (x.head?_ownLabels hown)
    obtain ⟨k, i, hk⟩ := x.exists_label o hown
    have hpos : 0 < ((compile p o).listing.image.filterMap Prod.fst).count (Label.global name) := by
      rw [List.count_pos_iff, hx]
      exact List.mem_filterMap.2 ⟨_, List.mem_of_getElem? hk, rfl⟩
    have hcount :
        ((compile p o).listing.image.filterMap Prod.fst).count (Label.global name) = 1 := by
      rw [hx] at hpos ⊢
      omega
    refine ⟨hcount, fun hs => ?_⟩
    have hvalid : Name.isValid name = true := hs.names name (List.mem_append_left _ hname)
    rw [Compilation.text, hx, hs.countP_startsWithLabel x hvalid, ← hx, hcount]
  · intro f hf
    have hown : Label.function f.name ∈ x.ownLabels := by
      simp only [Passes.ownLabels, List.mem_append, List.mem_map]
      exact .inr (.inr (.inl ⟨f, hf, rfl⟩))
    obtain ⟨k, i, hk⟩ := x.exists_label o hown
    have hmem : Label.function f.name ∈ (compile p o).listing.image.filterMap Prod.fst := by
      rw [hx]
      exact List.mem_filterMap.2 ⟨_, List.mem_of_getElem? hk, rfl⟩
    rw [himage, List.filterMap_append, List.mem_append] at hmem
    exact hmem.resolve_left (function_notMem_front _ _ _)

/-- Globals of all kinds, two of them without words, around the functions. -/
def scattered : Program :=
  [.function { name := "main", body := [.load .r1 "text", .store "last" .r1] },
   .global "text" (.string "ok"),
   .global "void" (.array []),
   .function { name := "other", body := [.nop] },
   .global "gap" (.block (.ofToken "0")),
   .global "table" (.array [.ofToken "0x10", .ofToken "-1"]),
   .global "room" (.block (.ofToken "2")),
   .global "last" (.literal (.ofToken "'F'"))]

/-- The words of these globals. -/
def scatteredWords : List (Text × List Int) :=
  [("text", [111, 107, 0]), ("void", []), ("gap", []), ("table", [16, -1]), ("room", [0, 0]),
    ("last", [70])]

theorem data_layout_scattered :
    (compile scattered {}).fault = none ∧ WellSpelled scattered {} ∧
      (∃ l i ws, (compile scattered {}).listing.image =
        wordsFrom none (Compilation.prologue (Options.effective {}))
          ++ scatteredWords.flatMap (fun x => dataBlock x.1 x.2) ++ (some l, i) :: ws) ∧
      ∀ name ∈ scattered.globals, (Text.split 10 (compile scattered {}).text).countP
        (startsWithLabel (Label.global name)) = 1 := by
  have hfault : (compile scattered {}).fault = none := compile_fault_eq_none.2 (by decide)
  have hspelled : WellSpelled scattered {} := ⟨by decide, by decide, by decide, by decide⟩
  have hwords : List.Forall₂ (fun x y => x.1 = y.1 ∧ x.2.Holds y.2) scattered.declaredData
      scatteredWords := by
    have htext : Data.Holds (.string "ok") [111, 107, 0] := .string
    have htable : Data.Holds (.array [.ofToken "0x10", .ofToken "-1"]) [16, -1] :=
      .array (.cons (by decide) (.cons (by decide) .nil))
    have hblock (k : Nat) (l : Literal) (h : l.value = .ok (k : Int)) :
        Data.Holds (.block l) (List.replicate k 0) := .block h
    exact .cons ⟨rfl, htext⟩ <| .cons ⟨rfl, .array .nil⟩ <| .cons ⟨rfl, hblock 0 _ (by decide)⟩ <|
      .cons ⟨rfl, htable⟩ <| .cons ⟨rfl, hblock 2 _ (by decide)⟩ <|
      .cons ⟨rfl, .literal (by decide)⟩ .nil
  obtain ⟨contents, code, hcontents, himage, -, ⟨l, i, ws, rfl⟩, hlabel, -⟩ := data_layout hfault
  obtain rfl : contents = scatteredWords := by
    refine List.right_unique_forall₂' ?_ hcontents hwords
    rintro x ⟨name, ws⟩ ⟨name', ws'⟩ ⟨h₁, h₂⟩ ⟨h₃, h₄⟩
    rw [Prod.mk.injEq]
    exact ⟨h₁.symm.trans h₃, h₂.unique h₄⟩
  exact ⟨hfault, hspelled, ⟨l, i, ws, himage⟩, fun name hname => (hlabel name hname).2 hspelled⟩

end StumpGen
