import StumpGen.Proofs.Layout
import StumpGen.Proofs.Machine

/-!
# Straight-line statements keep their meaning

A statement of a program that compiles is code between two places of the image (`Site.start`,
`Site.stop`).  For the statements that neither jump nor call, `Site.effect` says what they do to
a state of the machine in the words of the source: which register or which word of memory changes
and to what.

* `Compilation.load` : the image of a compilation.
* `address?_of_word` : a label that no statement marks is the address of the word it stands at.
* `straightLine_effect` : execution from the first word of such a statement reaches the word
  behind its last one with exactly that effect, whatever registers it names.  Only a store to a
  global leaves a trace besides, in the word in which it parks the register that it borrows.
-/

namespace StumpGen

open Assembly Lowering Machine

/-! ### Images of compilations -/

namespace Machine.Image

/-- A label that is made up stands at one word only. -/
def Resolves (img : Image) : Prop :=
  ∀ n k i, img.words[k]? = some (some (Label.generated n), i) →
    img.address? (Label.generated n) = some (img.place k)

variable {p : Program} {o : Options} {img : Image}

theorem address?_of_word (h : (compile p o).fault = none)
    (hi : img.words = (compile p o).listing.image) {l : Text} (hl : l.head? ≠ some 76)
    {k : Nat} {i : Instruction} (hk : img.words[k]? = some (some l, i)) :
    img.address? l = some (img.place k) := by
  obtain ⟨x, hx⟩ := compile_emissions h
  have hf : img.words.findIdx? (fun w => w.1 = some l) = some k := by
    rw [hi, hx] at hk ⊢
    exact x.findIdx?_label o hl hk
  rw [address?, hf, Option.map_some]

theorem resolves (h : (compile p o).fault = none)
    (hi : img.words = (compile p o).listing.image) : img.Resolves :=
  fun _ _ _ hk => address?_of_word h hi (by simp) hk

/-- Labels of globals, of functions and made-up ones are addresses of words. -/
theorem address?_own (h : (compile p o).fault = none)
    (hi : img.words = (compile p o).listing.image) {l : Text} (hl : l.head? ≠ some 76)
    (hown : ∀ x : Passes p, l ∈ x.ownLabels) :
    ∃ (k : Nat) (i : Instruction), img.words[k]? = some (some l, i) ∧
      img.address? l = some (img.place k) := by
  obtain ⟨x, hx⟩ := compile_emissions h
  obtain ⟨k, i, hk⟩ := x.exists_label o (hown x)
  rw [← hx, ← hi] at hk
  exact ⟨k, i, hk, address?_of_word h hi hl hk⟩

theorem address?_global (h : (compile p o).fault = none)
    (hi : img.words = (compile p o).listing.image) {name : Text} (hn : name ∈ p.globals) :
    ∃ (k : Nat) (i : Instruction), img.words[k]? = some (some (Label.global name), i) ∧
      img.address? (Label.global name) = some (img.place k) :=
  address?_own h hi (by simp) fun _ =>
    List.mem_append_right _ (List.mem_append_left _ (List.mem_map_of_mem hn))

end Machine.Image

/-! ### What statements do -/

/-- The register operands of a statement that neither jumps, calls nor declares. -/
def Statement.operands? : Statement → Option (List Register)
  | .addAssignImm dest _ | .set dest _ | .load dest _ | .loadAddr dest _ => some [dest]
  | .cmpImm left _ => some [left]
  | .store _ src => some [src]
  | .addAssignReg dest src | .loadReg dest src | .shiftLeft dest src _ => some [dest, src]
  | .andImm dest left _ => some [dest, left]
  | .cmpReg left right => some [left, right]
  | .storeReg addr src => some [addr, src]
  | .andReg dest left right => some [dest, left, right]
  | .loadOffset dest base offset => some [dest, base, offset]
  | .storeOffset base offset value => some [base, offset, value]
  | .nop => some []
  | _ => none

/-- A literal as a word. -/
def Literal.word? (l : Literal) : Option Word := l.value.toOption.map (BitVec.ofInt 16)

theorem Literal.word?_of_value {l : Literal} {v : Int} (h : l.value = .ok v) :
    l.word? = some (BitVec.ofInt 16 v) := by
  rw [word?, h]; rfl

namespace Machine.State

variable {T : Target} (s : State T)

/-- The contents of a register of a program. -/
def reg (r : Register) : Word := s.get r.target

/-- Writes a register of a program. -/
def setReg (r : Register) (w : Word) : State T := s.set r.target w

end Machine.State

namespace Site

variable {p : Program} {T : Target} (x : Site p) (img : Image) (s : State T)

/-- The address of a variable: that of a global, or a place in the frame. -/
def address? (name : Text) : Option Word :=
  if name ∈ p.globals then img.address? (Label.global name)
  else (x.function.frame.idxOf? name).map fun i => s.reg .sf + BitVec.ofNat 16 i

/-- What a statement that neither jumps, calls nor declares does. -/
def effect : Statement → Option (State T)
  | .addAssignImm dest value => value.word?.map fun v => s.setReg dest (s.reg dest + v)
  | .addAssignReg dest src => some (s.setReg dest (s.reg dest + s.reg src))
  | .andImm dest left value => value.word?.map fun v => s.setReg dest (s.reg left &&& v)
  | .andReg dest left right => some (s.setReg dest (s.reg left &&& s.reg right))
  | .cmpImm left value => value.word?.map fun v => s.setFlags (T.compare (s.reg left) v)
  | .cmpReg left right => some (s.setFlags (T.compare (s.reg left) (s.reg right)))
  | .load dest name => (x.address? img s name).map fun a => s.setReg dest (s.mem a)
  | .loadAddr dest name => (x.address? img s name).map fun a => s.setReg dest a
  | .loadReg dest src => some (s.setReg dest (s.mem (s.reg src)))
  | .loadOffset dest base offset => some (s.setReg dest (s.mem (s.reg base + s.reg offset)))
  | .store name src => (x.address? img s name).map fun a => s.write a (s.reg src)
  | .storeReg addr src => some (s.write (s.reg addr) (s.reg src))
  | .storeOffset base offset value => some (s.write (s.reg base + s.reg offset) (s.reg value))
  | .set dest value => value.word?.map fun v => s.setReg dest v
  | .shiftLeft dest src amount => amount.value.toOption.map fun k =>
    s.setReg dest (s.reg src * BitVec.ofNat 16 (2 ^ k.toNat))
  | .nop => some s
  | _ => none

/-- The word in which a store to a global parks a register: the zero between its instructions. -/
def Parks (o : Options) (k : Nat) : Prop :=
  (∃ name src, x.statement = .store name src ∧ name ∈ p.globals) ∧
    x.start o ≤ k ∧ k < x.stop o ∧
    ((compile p o).listing.image[k]?).map Prod.snd = some (.data 0)

end Site

/-! ### Words that are jumped over -/

namespace Machine.Image

variable {T : Target} {img : Image} {s : State T} {k n : Nat} {w : Option Text} {d : Reg}

theorem wordsFrom_embedding (word : Instruction) (es : List Emission) :
    wordsFrom w (embedding d word n ++ es) =
      [(w, .jump (Label.generated n)), (some (Label.generated (n + 1)), word),
        (some (Label.generated n), .loadLabel d (Label.generated (n + 1)))]
        ++ wordsFrom none es := by
  simp [embedding]

/-- **An embedded word is loaded and not executed.** -/
theorem reaches_embedding (hg : img.Resolves) (hd : d ≠ .r7) {word : Instruction}
    {ws : List (Option Text × Instruction)}
    (h : img.Stored T s.mem k ([(w, .jump (Label.generated n)),
      (some (Label.generated (n + 1)), word),
      (some (Label.generated n), .loadLabel d (Label.generated (n + 1)))] ++ ws)) :
    ∃ v, img.contents? T (img.place (k + 1)) word = some v ∧
      img.Reaches (s.jump (img.place k)) ((s.set d v).jump (img.place (k + 3))) ∧
      img.Stored T s.mem (k + 3) ws := by
  have hjump := h
  obtain ⟨-, ⟨hword, hc⟩, hload⟩ := h
  refine ⟨s.mem (img.place (k + 1)), hc, ?_, hload.2⟩
  refine (hjump.run (Image.exec_jump s _ (hg _ _ _ hload.1.1))).trans ?_
  exact hload.run (Image.exec_loadLabel s _ hd (hg _ _ _ hword))

theorem mul_two_pow_succ (a : Word) (j : Nat) :
    a * BitVec.ofNat 16 (2 ^ (j + 1)) = (a + a) * BitVec.ofNat 16 (2 ^ j) := by
  rw [Nat.pow_succ, BitVec.ofNat_mul, BitVec.add_mul, ← BitVec.mul_assoc]
  exact BitVec.mul_two

/-- **A register is doubled again and again.** -/
theorem reaches_doubling (hd : d ≠ .r7) (j : Nat)
    (h : img.Stored T s.mem k (List.replicate j (none, .addReg d d d))) :
    img.Reaches (s.jump (img.place k))
      ((s.set d (s.get d * BitVec.ofNat 16 (2 ^ j))).jump (img.place (k + j))) := by
  induction j generalizing s k with
  | zero =>
    have he : s.set d (s.get d * BitVec.ofNat 16 (2 ^ 0)) = s := by simp [State.set_get]
    rw [he]
    exact .refl
  | succ j ih =>
    rw [List.replicate_succ] at h
    have hstep := h.run (Image.exec_addReg s _ hd hd hd)
    have hrest := ih (s := s.set d (s.get d + s.get d)) (k := k + 1) (by simpa using h.2)
    -- doubling and multiplying by the rest is multiplying by all of it
    rw [State.set_get_set _ _ _ (· * BitVec.ofNat 16 (2 ^ j)), ← mul_two_pow_succ] at hrest
    rw [show k + (j + 1) = k + 1 + j by omega]
    exact hstep.trans hrest

theorem borrowed_ne (src : Reg) : borrowed src ≠ src := by
  unfold borrowed
  split
  · rename_i h; rw [h]; decide
  · rename_i h; exact fun e => h e.symm

theorem borrowed_ne_r7 (src : Reg) : borrowed src ≠ .r7 := by
  unfold borrowed; split <;> decide

theorem cell_borrowed (src : Reg) : (cell (borrowed src)).isSome = true := by
  unfold borrowed; split <;> rfl

theorem wordsFrom_storing (name : Text) (src : Reg) :
    wordsFrom w (storing name src n) = [(w, .jump (Label.generated n)),
      (some (Label.generated (n + 1)), .dataLabel (Label.global name))]
      ++ (some (Label.generated (n + 2)), .data 0) ::
      [(some (Label.generated n), .storeLabel (borrowed src) (Label.generated (n + 2))),
        (none, .loadLabel (borrowed src) (Label.generated (n + 1))),
        (none, .storeAt src (borrowed src)),
        (none, .loadLabel (borrowed src) (Label.generated (n + 2)))] := by
  simp [storing]

/-- **A store to a global gives back the register that it borrows.**  The word in which it parks
the register, the third one, may hold anything. -/
theorem reaches_storing (hg : img.Resolves) {name : Text} {src : Reg} (hs : src ≠ .r7)
    {g : Nat} {i : Instruction} (hword : img.words[g]? = some (some (Label.global name), i))
    (haddr : img.address? (Label.global name) = some (img.place g))
    (h : img.Stored T (Function.update s.mem (img.place (k + 2)) 0) k
      (wordsFrom w (storing name src n))) :
    img.Reaches (s.jump (img.place k))
      (((s.write (img.place (k + 2)) (s.get (borrowed src))).write (img.place g)
        (s.get src)).jump (img.place (k + 7))) := by
  have hb := borrowed_ne_r7 src
  rw [wordsFrom_storing, stored_append] at h
  obtain ⟨hhead, ⟨(hpark : img.words[k + 2]? = _), -⟩, (htail : img.Stored T _ (k + 3) _)⟩ := h
  have hparkLt := (List.getElem?_eq_some_iff.1 hpark).1
  have hgLt := (List.getElem?_eq_some_iff.1 hword).1
  -- the other words are stored as memory is
  have hmem : Function.update (Function.update s.mem (img.place (k + 2)) 0) (img.place (k + 2))
      (s.mem (img.place (k + 2))) = s.mem := by simp
  have hhead := hhead.write_place hparkLt (.inr (Nat.le_refl _)) (s.mem (img.place (k + 2)))
  have htail := htail.write_place hparkLt (.inl (by omega)) (s.mem (img.place (k + 2)))
  rw [hmem] at hhead htail
  obtain ⟨hptr, hc⟩ := hhead.tail.1
  have hptrLt := (List.getElem?_eq_some_iff.1 hptr).1
  have hptrAddr := hg _ _ _ hptr
  have hparkAddr := hg _ _ _ hpark
  -- the global is none of the words of the store
  have hgPark : img.place (k + 2) ≠ img.place g := by
    intro e
    obtain rfl := place_inj hparkLt hgLt e
    have hl := congrArg (Option.bind · fun w => w.1.bind List.head?) (hpark.symm.trans hword)
    simp at hl
  have hgLast : g ≠ k + 6 := by
    rintro rfl
    have hl := hword.symm.trans htail.tail.tail.tail.1.1
    simp at hl
  -- over the words to the instructions
  refine (hhead.run (exec_jump s _ (hg _ _ _ htail.1.1))).trans ?_
  -- the register is parked
  refine (htail.run (exec_storeLabel s _ hb hparkAddr)).trans ?_
  set s₁ := s.write (img.place (k + 2)) (s.get (borrowed src)) with hs₁
  have h₁ := htail.tail.write_place hparkLt (.inl (by omega)) (s.get (borrowed src))
  change img.Stored T s₁.mem _ _ at h₁
  -- it takes the address of the global
  refine (h₁.run (exec_loadLabel s₁ _ hb hptrAddr)).trans ?_
  have hv : s₁.mem (img.place (k + 1)) = img.place g := by
    have hne : img.place (k + 1) ≠ img.place (k + 2) := fun e => by
      have := place_inj hptrLt hparkLt e
      omega
    rw [hs₁, State.mem_write, Function.update_of_ne hne]
    exact Option.some.inj (hc.symm.trans haddr)
  rw [hv]
  set s₂ := s₁.set (borrowed src) (img.place g) with hs₂
  have h₂ := h₁.tail
  rw [← State.mem_set s₁ (borrowed src) (img.place g), ← hs₂] at h₂
  -- the register is stored there
  refine (h₂.run (exec_storeAt s₂ _ hs hb)).trans ?_
  have hsrc : s₂.get src = s.get src := s₁.get_set_of_ne (borrowed_ne src) _
  rw [hsrc, State.get_set_of_isSome _ (cell_borrowed src)]
  set s₃ := s₂.write (img.place g) (s.get src) with hs₃
  have h₃ := h₂.tail.write_place hgLt (by simp only [List.length_singleton]; omega) (s.get src)
  change img.Stored T s₃.mem _ _ at h₃
  -- and the borrowed one is loaded back
  refine (h₃.run (exec_loadLabel s₃ _ hb hparkAddr)).trans ?_
  have hold : s₃.mem (img.place (k + 2)) = s.get (borrowed src) := by
    rw [hs₃, State.mem_write, Function.update_of_ne hgPark, State.mem_set, hs₁, State.mem_write,
      Function.update_self]
  have hend : s₃.set (borrowed src) (s₃.mem (img.place (k + 2)))
      = s₁.write (img.place g) (s.get src) := by
    have hget : s.get (borrowed src) = s₁.get (borrowed src) := rfl
    rw [hold, hs₃, State.write_set, hs₂, State.set_set, hget, State.set_get]
  rw [hend]
  exact .refl

end Machine.Image

/-! ### The statements -/

theorem Register.target_ne_r7 {r : Register} (h : r ≠ .pc) : r.target ≠ .r7 := by
  cases r <;> simp [target] at h ⊢

namespace Site

variable {p : Program} {o : Options} {T : Target} {x : Site p} {img : Image} {s : State T}

theorem symbols_scope (y : Passes p) : x.scope.symbols = y.symbols := by
  rw [scope, Scope.ofFunction, y.collected.state]

theorem isGlobal_iff (h : (compile p o).fault = none) {name : Text} :
    x.scope.symbols.isGlobal name = true ↔ name ∈ p.globals := by
  obtain ⟨y, -⟩ := compile_emissions h
  rw [symbols_scope y]
  exact y.isGlobal_iff

/-- The address of a variable in the frame. -/
theorem address?_slot (h : (compile p o).fault = none) {name : Text} {i : Nat}
    (hi : x.scope.resolve name = .ok (.slot i)) :
    x.address? img s name = some (s.get .r6 + BitVec.ofInt 16 (i : Int)) := by
  obtain ⟨hg, hf, -⟩ := resolve_eq_slot.1 hi
  have hn : name ∉ p.globals := by rw [← isGlobal_iff (x := x) h, hg]; decide
  have hf' : x.function.frame.idxOf? name = some i := hf
  rw [address?, if_neg hn, hf', Option.map_some, BitVec.ofInt_natCast]
  rfl

theorem address?_isGlobal (h : (compile p o).fault = none) {name : Text}
    (hn : x.scope.symbols.isGlobal name = true) :
    x.address? img s name = img.address? (Label.global name) := by
  rw [address?, if_pos ((isGlobal_iff h).1 hn)]

/-- **The code of a statement does what the statement does**, unless it stores to a global. -/
theorem reaches_effect (h : (compile p o).fault = none) (hg : img.Resolves) {st : Statement}
    {n t k : Nat} {es : List Emission} {w : Option Text} (hl : Lowered x.scope st n es t)
    {rs : List Register} (hx : st.operands? = some rs) (hpc : .pc ∉ rs)
    (hst : ∀ name src, st = .store name src → name ∉ p.globals)
    (hs : img.Stored T s.mem k (wordsFrom w es)) :
    ∃ e, x.effect img s st = some e ∧
      img.Reaches (s.jump (img.place k)) (e.jump (img.place (k + (wordsFrom w es).length))) := by
  have hr : ∀ r ∈ rs, r.target ≠ .r7 := fun r hr => Register.target_ne_r7 fun e => hpc (e ▸ hr)
  cases hl with
  | @addAssignImm dest value v _ _ hv _ =>
    obtain rfl := Option.some.inj hx
    have hd := hr dest (by simp)
    exact ⟨_, by rw [effect, Literal.word?_of_value hv]; rfl,
      hs.run (Image.exec_addImm s _ hd hd v)⟩
  | @addAssignReg dest src _ _ _ =>
    obtain rfl := Option.some.inj hx
    have hd := hr dest (by simp)
    exact ⟨_, rfl, hs.run (Image.exec_addReg s _ hd hd (hr src (by simp)))⟩
  | @andImm dest left value v _ _ _ hv _ =>
    obtain rfl := Option.some.inj hx
    exact ⟨_, by rw [effect, Literal.word?_of_value hv]; rfl,
      hs.run (Image.exec_andImm s _ (hr dest (by simp)) (hr left (by simp)) v)⟩
  | @andReg dest left right _ _ _ _ =>
    obtain rfl := Option.some.inj hx
    exact ⟨_, rfl, hs.run (Image.exec_andReg s _ (hr dest (by simp)) (hr left (by simp))
      (hr right (by simp)))⟩
  | @cmpImm left value v _ _ hv _ =>
    obtain rfl := Option.some.inj hx
    exact ⟨_, by rw [effect, Literal.word?_of_value hv]; rfl,
      hs.run (Image.exec_cmpImm s _ (hr left (by simp)) v)⟩
  | @cmpReg left right _ _ _ =>
    obtain rfl := Option.some.inj hx
    exact ⟨_, rfl, hs.run (Image.exec_cmpReg s _ (hr left (by simp)) (hr right (by simp)))⟩
  | @loadGlobal dest name _ _ hn =>
    obtain rfl := Option.some.inj hx
    have hd := hr dest (by simp)
    rw [List.cons_append, wordsFrom_comment, Image.wordsFrom_embedding] at hs ⊢
    obtain ⟨v, hv, hreach, hrest⟩ := Image.reaches_embedding hg hd hs
    rw [Image.contents?_dataLabel] at hv
    refine ⟨_, by rw [effect, address?_isGlobal h hn, hv]; rfl, hreach.trans ?_⟩
    rw [← State.mem_set s dest.target v] at hrest
    refine (hrest.run (Image.exec_loadAt _ _ hd hd)).trans ?_
    rw [State.set_get_set, State.mem_set]
    exact .refl
  | @loadSlot dest name i _ _ hi =>
    obtain rfl := Option.some.inj hx
    exact ⟨_, by rw [effect, address?_slot h hi]; rfl,
      hs.run (Image.exec_loadSlot s _ (hr dest (by simp)) (by decide) i)⟩
  | @addrGlobal dest name _ _ hn =>
    obtain rfl := Option.some.inj hx
    rw [wordsFrom_comment, ← List.append_nil (embedding _ _ _), Image.wordsFrom_embedding] at hs ⊢
    obtain ⟨v, hv, hreach, -⟩ := Image.reaches_embedding hg (hr dest (by simp)) hs
    rw [Image.contents?_dataLabel] at hv
    exact ⟨_, by rw [effect, address?_isGlobal h hn, hv]; rfl, hreach⟩
  | @addrSlot dest name i _ _ hi =>
    obtain rfl := Option.some.inj hx
    exact ⟨_, by rw [effect, address?_slot h hi]; rfl,
      hs.run (Image.exec_addImm s _ (hr dest (by simp)) (by decide) i)⟩
  | @loadReg dest src _ _ _ =>
    obtain rfl := Option.some.inj hx
    exact ⟨_, rfl, hs.run (Image.exec_loadAt s _ (hr dest (by simp)) (hr src (by simp)))⟩
  | @loadOffset dest base offset _ _ _ _ =>
    obtain rfl := Option.some.inj hx
    exact ⟨_, rfl, hs.run (Image.exec_loadReg s _ (hr dest (by simp)) (hr base (by simp))
      (hr offset (by simp)))⟩
  | @storeGlobal name src _ _ hn => exact absurd ((isGlobal_iff h).1 hn) (hst name src rfl)
  | @storeSlot name src i _ _ hi =>
    obtain rfl := Option.some.inj hx
    exact ⟨_, by rw [effect, address?_slot h hi]; rfl,
      hs.run (Image.exec_storeSlot s _ (hr src (by simp)) (by decide) i)⟩
  | @storeReg addr src _ _ _ =>
    obtain rfl := Option.some.inj hx
    exact ⟨_, rfl, hs.run (Image.exec_storeAt s _ (hr src (by simp)) (hr addr (by simp)))⟩
  | @storeOffset base offset value _ _ _ _ =>
    obtain rfl := Option.some.inj hx
    exact ⟨_, rfl, hs.run (Image.exec_storeReg s _ (hr value (by simp)) (hr base (by simp))
      (hr offset (by simp)))⟩
  | @setSmall dest value v _ _ hv _ =>
    obtain rfl := Option.some.inj hx
    exact ⟨_, by rw [effect, Literal.word?_of_value hv]; rfl,
      hs.run (Image.exec_movImm s _ (hr dest (by simp)) v)⟩
  | @setWide dest value v _ _ hv _ _ =>
    obtain rfl := Option.some.inj hx
    rw [wordsFrom_comment, ← List.append_nil (embedding _ _ _), Image.wordsFrom_embedding] at hs ⊢
    obtain ⟨_, hc, hreach, -⟩ := Image.reaches_embedding hg (hr dest (by simp)) hs
    obtain rfl := Option.some.inj (Image.contents?_data _ v ▸ hc)
    exact ⟨_, by rw [effect, Literal.word?_of_value hv]; rfl, hreach⟩
  | @shiftLeft dest src amount j _ _ _ hj _ =>
    obtain rfl := Option.some.inj hx
    have hd := hr dest (by simp)
    have hsrc := hr src (by simp)
    refine ⟨s.set dest.target (s.get src.target * BitVec.ofNat 16 (2 ^ j)), ?_, ?_⟩
    · rw [effect, hj]; rfl
    rw [wordsFrom_comment] at hs ⊢
    cases j with
    | zero =>
      refine (hs.run (Image.exec_move s _ hd hsrc)).trans ?_
      rw [Nat.pow_zero, BitVec.mul_one]
      exact .refl
    | succ j =>
      rw [doublings, List.map_cons, wordsFrom_code, wordsFrom_map_code, List.map_replicate] at hs ⊢
      refine (hs.run (Image.exec_addReg s _ hd hsrc hsrc)).trans ?_
      have hrest := hs.tail
      rw [← State.mem_set s dest.target (s.get src.target + s.get src.target)] at hrest
      have hdouble := Image.reaches_doubling hd j hrest
      rw [State.set_get_set _ _ _ (· * BitVec.ofNat 16 (2 ^ j)),
        ← Image.mul_two_pow_succ] at hdouble
      rw [List.length_cons, List.length_replicate, show k + (j + 1) = k + 1 + j by omega]
      exact hdouble
  | nop => exact ⟨s, rfl, hs.run (Image.exec_nop s _)⟩
  | goto => cases hx
  | gotoCond _ => cases hx
  | label => cases hx
  | call _ _ => cases hx
  | declare => cases hx

end Site

section Main

variable {p : Program} {o : Options} {T : Target} {img : Image} {x : Site p} {s : State T}

/-- **The code of a store to a global** writes the global and the word in which it parks. -/
theorem Site.reaches_storeGlobal (h : (compile p o).fault = none)
    (hi : img.words = (compile p o).listing.image) {name : Text} {src : Register}
    (hx : x.statement = .store name src) (hn : name ∈ p.globals) (hpc : src ≠ .pc)
    (hm : ∀ k, x.start o ≤ k → k < x.stop o → ¬ x.Parks o k → img.Intact T s.mem k) :
    ∃ a k, x.Parks o k ∧ img.address? (Label.global name) = some a ∧
      img.Reaches (s.jump (img.place (x.start o)))
        (((s.write (img.place k) (s.get (borrowed src.target))).write a (s.reg src)).jump
          (img.place (x.stop o))) := by
  obtain ⟨n, es, t, w, pre, post, hl, himg, hstart, hstop⟩ := x.placed o h
  rw [hx] at hl
  cases hl with
  | storeSlot _ hslot =>
    have := (resolve_eq_slot.1 hslot).1
    rw [(Site.isGlobal_iff h).2 hn] at this
    cases this
  | storeGlobal hs hg =>
    rw [wordsFrom_comment] at himg hstop
    rw [← hstart, ← hstop] at hm ⊢
    have hlen : (wordsFrom w (storing name src.target n)).length = 7 := by
      rw [Image.wordsFrom_storing]; rfl
    have hword : ∀ j, j < 7 → img.words[pre.length + j]? = (wordsFrom w
        (storing name src.target n))[j]? := by
      intro j hj
      rw [hi, himg, List.append_assoc, List.getElem?_append_right (by omega),
        List.getElem?_append_left (by omega), Nat.add_sub_cancel_left]
    have hzero : img.words[pre.length + 2]? = some (some (Label.generated (n + 2)), .data 0) := by
      rw [hword 2 (by omega), Image.wordsFrom_storing]; rfl
    have hpark : x.Parks o (pre.length + 2) :=
      ⟨⟨name, src, hx, hn⟩, by omega, by omega, by rw [← hi, hzero]; rfl⟩
    -- no other word of the store is a zero
    have honly : ∀ j, pre.length ≤ j → j < pre.length + 7 → x.Parks o j → j = pre.length + 2 := by
      rintro j hj hj' ⟨-, -, -, hd⟩
      obtain ⟨j, rfl⟩ := Nat.exists_eq_add_of_le hj
      rw [← hi, hword j (by omega), Image.wordsFrom_storing] at hd
      obtain rfl | rfl | rfl | rfl | rfl | rfl | rfl :
        j = 0 ∨ j = 1 ∨ j = 2 ∨ j = 3 ∨ j = 4 ∨ j = 5 ∨ j = 6 := by omega
      all_goals first | rfl | cases hd
    obtain ⟨g, i, hgw, hga⟩ := Image.address?_global h hi hn
    refine ⟨img.place g, pre.length + 2, hpark, hga, ?_⟩
    rw [hlen]
    refine Image.reaches_storing (Image.resolves h hi) (Register.target_ne_r7 hpc) hgw hga
      (Image.stored_of_intact (hi.trans himg) fun j hj hj' => ?_)
    rw [hlen] at hj'
    by_cases hj₂ : j = pre.length + 2
    · subst hj₂
      exact ⟨_, hzero, by rw [Image.contents?_data, Function.update_self]; rfl⟩
    · obtain ⟨w', hw', hc⟩ := hm j hj (by omega) fun hp => hj₂ (honly j hj hj' hp)
      refine ⟨w', hw', ?_⟩
      rw [Function.update_of_ne, hc]
      intro e
      exact hj₂ (Image.place_inj (List.getElem?_eq_some_iff.1 hw').1
        (List.getElem?_eq_some_iff.1 hzero).1 e)

/-- **Straight-line statements keep their meaning.**  From the first word of a statement that
neither jumps, calls nor declares and names no `pc`, execution reaches the word behind its last
one.  The registers, the flags and the memory are then as the statement says, but for the word in
which a store to a global parks a register. -/
theorem straightLine_effect (h : (compile p o).fault = none)
    (hi : img.words = (compile p o).listing.image) {rs : List Register}
    (hx : x.statement.operands? = some rs) (hpc : .pc ∉ rs)
    (hs : s.pc = img.place (x.start o))
    (hm : ∀ k, x.start o ≤ k → k < x.stop o → ¬ x.Parks o k → img.Intact T s.mem k) :
    ∃ e u, x.effect img s x.statement = some e ∧ img.Reaches s u ∧
      u.pc = img.place (x.stop o) ∧ (∀ r, r ≠ .r7 → u.get r = e.get r) ∧ u.flags = e.flags ∧
      ∀ a, (∀ k, x.Parks o k → a ≠ img.place k) → u.mem a = e.mem a := by
  have hjump : s.jump (img.place (x.start o)) = s := by rw [← hs, State.jump_pc]
  by_cases hg : ∃ name src, x.statement = .store name src ∧ name ∈ p.globals
  · obtain ⟨name, src, hst, hn⟩ := hg
    rw [hst] at hx ⊢
    obtain rfl := Option.some.inj hx
    obtain ⟨a, k, hk, ha, hreach⟩ :=
      Site.reaches_storeGlobal h hi hst hn (fun e => hpc (by simp [e])) hm
    rw [hjump] at hreach
    refine ⟨s.write a (s.reg src), _, ?_, hreach, State.pc_jump _ _, fun r hr => ?_, rfl, ?_⟩
    · rw [Site.effect, Site.address?, if_pos hn, ha]; rfl
    · rw [State.get_jump _ hr]; rfl
    · intro b hb
      simp only [State.mem_jump, State.mem_write, Function.update_apply, hb k hk, if_false]
  · obtain ⟨n, es, t, w, pre, post, hl, himg, hstart, hstop⟩ := x.placed o h
    have hno : ∀ k, ¬ x.Parks o k := fun k hk => hg hk.1
    have hstored : img.Stored T s.mem pre.length (wordsFrom w es) :=
      Image.stored_of_intact (hi.trans himg) fun j hj hj' =>
        hm j (hstart ▸ hj) (hstop ▸ hj') (hno j)
    obtain ⟨e, he, hreach⟩ := Site.reaches_effect h (Image.resolves h hi) hl hx hpc
      (fun name src hst hn => hg ⟨name, src, hst, hn⟩) hstored
    rw [hstop, hstart, hjump] at hreach
    refine ⟨e, _, he, hreach, State.pc_jump _ _, fun r hr => State.get_jump _ hr _, rfl, ?_⟩
    intro b _
    rfl

end Main

/-! ### A store that borrows `r1`, right after loading -/

/-- A target that keeps both words that it compares. -/
def Machine.plainTarget : Target where
  encode := fun a _ => a
  Flags := Word × Word
  compare := Prod.mk
  holds := fun _ f => f.1 = f.2

/-- A program that stores `lr` to a global. -/
def keepLink : Program :=
  [.global "kept" (.block ⟨.decimal, "1"⟩),
    .function { name := "main", body := [.store "kept" .lr] }]

theorem keepLink_compiles : (compile keepLink {}).fault = none := by decide

/-- The store. -/
def keepLinkSite : Site keepLink where
  earlier := []
  function := { name := "main", body := [.store "kept" .lr] }
  later := []
  functions_eq := rfl
  before := []
  statement := .store "kept" .lr
  after := []
  body_eq := rfl

/-- The program across the end of the memory. -/
def keepLinkImage : Image where
  origin := 0xFFF8
  words := (compile keepLink {}).listing.image
  fits := by decide

/-- The state in front of the store. -/
def keepLinkState : State plainTarget where
  regs := fun _ => keepLinkImage.place (keepLinkSite.start {})
  mem := keepLinkImage.loaded plainTarget
  flags := (0, 0)

theorem straightLine_effect_keepLink :
    ∃ e u, keepLinkSite.effect keepLinkImage keepLinkState (.store "kept" .lr) = some e ∧
      keepLinkImage.Reaches keepLinkState u ∧
      u.pc = keepLinkImage.place (keepLinkSite.stop {}) ∧
      (∀ r, r ≠ .r7 → u.get r = e.get r) ∧ u.flags = e.flags ∧
      ∀ a, (∀ k, keepLinkSite.Parks {} k → a ≠ keepLinkImage.place k) → u.mem a = e.mem a :=
  straightLine_effect keepLink_compiles rfl rfl (by decide) rfl fun _ _ hk _ =>
    Image.intact_loaded (by decide)
      (Nat.lt_of_lt_of_le hk (keepLinkSite.stop_le _ keepLink_compiles))

end StumpGen
