import StumpGen.Proofs.StraightLine

/-!
# The calling convention

A call saves `r1 … r4` and `lr` behind the frame of the caller, copies the arguments behind these
and jumps to the callee with `sf` at the first argument and the address of the word to resume at
in `lr`.  From there on it steps back to the caller's frame and restores the saved registers, all
but the one that keeps the output.

* `Marshalled` : what holds between two arguments.  It is the invariant of the loop over the
  arguments (`Marshalled.store`, `reaches_passed`), which borrows `r1` and moves `sf` around.
* `Entered` : the state in which the callee starts.
* `call_convention` : both halves, for every call of a program that compiles.
-/

namespace StumpGen

open Assembly Lowering Machine

/-! ### Words of a stack -/

namespace Machine

/-- The word `j` places behind `base`. -/
def behind (base : Word) (j : Nat) : Word := base + BitVec.ofNat 16 j

@[simp] theorem behind_zero (base : Word) : behind base 0 = base := by simp [behind]

theorem behind_behind (base : Word) (i j : Nat) :
    behind (behind base i) j = behind base (i + j) := by
  simp only [behind, BitVec.ofNat_add, BitVec.add_assoc]

/-- Moving along the stack by a constant. -/
theorem behind_add_ofInt (base : Word) {i j : Nat} {v : Int} (h : (i : Int) + v = j) :
    behind base i + BitVec.ofInt 16 v = behind base j := by
  rw [behind, behind, ← BitVec.ofInt_natCast, ← BitVec.ofInt_natCast, ← h, BitVec.ofInt_add,
    BitVec.add_assoc]

theorem behind_inj {base : Word} {i j : Nat} (hi : i < 2 ^ 16) (hj : j < 2 ^ 16)
    (h : behind base i = behind base j) : i = j := by
  have h' : BitVec.ofNat 16 i = BitVec.ofNat 16 j := (BitVec.add_right_inj _).1 h
  have := congrArg BitVec.toNat h'
  rwa [BitVec.toNat_ofNat, BitVec.toNat_ofNat, Nat.mod_eq_of_lt hi, Nat.mod_eq_of_lt hj] at this

/-! ### Saving and restoring -/

namespace State

variable {T : Target} {s : State T} {base : Word} {l : List (Reg × Nat)}

/-- Saves a register to its place behind `base`. -/
def save (base : Word) (s : State T) (e : Reg × Nat) : State T :=
  s.write (behind base e.2) (s.get e.1)

/-- Restores a register from its place behind `base`. -/
def restore (base : Word) (s : State T) (e : Reg × Nat) : State T :=
  s.set e.1 (s.mem (behind base e.2))

theorem get_foldl_save (r : Reg) : (l.foldl (save base) s).get r = s.get r := by
  induction l generalizing s with
  | nil => rfl
  | cons e l ih => rw [List.foldl_cons, ih]; rfl

theorem mem_foldl_save_of_ne {a : Word} (h : ∀ e ∈ l, a ≠ behind base e.2) :
    (l.foldl (save base) s).mem a = s.mem a := by
  induction l generalizing s with
  | nil => rfl
  | cons e l ih =>
    rw [List.foldl_cons, ih fun e' he' => h e' (List.mem_cons_of_mem _ he'), save, mem_write,
      Function.update_of_ne (h e List.mem_cons_self)]

theorem mem_foldl_save {e : Reg × Nat} (he : e ∈ l) (hn : (l.map Prod.snd).Nodup)
    (hl : ∀ e ∈ l, e.2 < 2 ^ 16) : (l.foldl (save base) s).mem (behind base e.2) = s.get e.1 := by
  induction l generalizing s with
  | nil => cases he
  | cons e' l ih =>
    rw [List.map_cons, List.nodup_cons] at hn
    rw [List.foldl_cons]
    rcases List.mem_cons.1 he with rfl | he
    · rw [mem_foldl_save_of_ne, save, mem_write, Function.update_self]
      intro e' he' h
      have := behind_inj (hl _ List.mem_cons_self) (hl _ (List.mem_cons_of_mem _ he')) h
      exact hn.1 (this ▸ List.mem_map_of_mem he')
    · exact ih he hn.2 fun e he => hl e (List.mem_cons_of_mem _ he)

@[simp] theorem mem_foldl_restore : (l.foldl (restore base) s).mem = s.mem := by
  induction l generalizing s with
  | nil => rfl
  | cons e l ih => rw [List.foldl_cons, ih, restore, mem_set]

@[simp] theorem flags_foldl_restore : (l.foldl (restore base) s).flags = s.flags := by
  induction l generalizing s with
  | nil => rfl
  | cons e l ih => rw [List.foldl_cons, ih, restore, flags_set]

theorem get_foldl_restore_of_ne {r : Reg} (h : ∀ e ∈ l, e.1 ≠ r) :
    (l.foldl (restore base) s).get r = s.get r := by
  induction l generalizing s with
  | nil => rfl
  | cons e l ih =>
    rw [List.foldl_cons, ih fun e' he' => h e' (List.mem_cons_of_mem _ he'), restore,
      get_set_of_ne _ (h e List.mem_cons_self)]

theorem get_foldl_restore {e : Reg × Nat} (he : e ∈ l) (hn : (l.map Prod.fst).Nodup)
    (hc : ∀ e ∈ l, (cell e.1).isSome = true) :
    (l.foldl (restore base) s).get e.1 = s.mem (behind base e.2) := by
  induction l generalizing s with
  | nil => cases he
  | cons e' l ih =>
    rw [List.map_cons, List.nodup_cons] at hn
    rw [List.foldl_cons]
    rcases List.mem_cons.1 he with rfl | he
    · rw [get_foldl_restore_of_ne, restore, get_set_of_isSome _ (hc _ List.mem_cons_self)]
      rintro e' he' h
      exact hn.1 (h ▸ List.mem_map_of_mem he')
    · rw [ih he hn.2 fun e he => hc e (List.mem_cons_of_mem _ he), restore, mem_set]

end State

/-- `sf` moves along the stack. -/
theorem Image.Stored.moveFrame {T : Target} {img : Image} {u : State T} {k : Nat}
    {w : Option Text} {v : Int} {ws : List (Option Text × Instruction)}
    (h : img.Stored T u.mem k ((w, .addImm .r6 .r6 v) :: ws)) {base : Word} {i j : Nat}
    (hi : u.get .r6 = behind base i) (hj : (i : Int) + v = j) :
    img.Reaches (u.jump (img.place k)) ((u.set .r6 (behind base j)).jump (img.place (k + 1))) ∧
      img.Stored T (u.set .r6 (behind base j)).mem (k + 1) ws := by
  have hrun := h.run (Image.exec_addImm u _ (by decide) (by decide) v)
  rw [hi, behind_add_ofInt base hj] at hrun
  exact ⟨hrun, by rw [State.mem_set]; exact h.tail⟩

/-- **Instructions in a row** that leave the program counter and the image alone. -/
theorem Image.reaches_foldl {T : Target} {img : Image} {α : Type} {Q : State T → Prop}
    {f : State T → α → State T} {i : α → Instruction} {l : List α}
    (hx : ∀ s p, Q s → ∀ a ∈ l, img.exec (i a) (s.jump p) = some ((f s a).jump p))
    (hq : ∀ s, Q s → ∀ a ∈ l, Q (f s a))
    (hm : ∀ s, Q s → ∀ a ∈ l, ∀ j, j < img.words.length →
      (f s a).mem (img.place j) = s.mem (img.place j))
    {s : State T} (hs : Q s) {k : Nat} (h : img.Stored T s.mem k (l.map fun a => (none, i a))) :
    img.Reaches (s.jump (img.place k)) ((l.foldl f s).jump (img.place (k + l.length))) := by
  induction l generalizing s k with
  | nil => exact .refl
  | cons a l ih =>
    rw [List.map_cons] at h
    have ha := hx s (img.place (k + 1)) hs a List.mem_cons_self
    have hrest : img.Stored T (f s a).mem (k + 1) (l.map fun a => (none, i a)) :=
      h.tail.congr fun j hj hj' =>
        hm s hs a List.mem_cons_self j (h.tail.lt_length hj hj')
    rw [List.foldl_cons, List.length_cons, show k + (l.length + 1) = k + 1 + l.length by omega]
    refine (h.run ha).trans (ih (fun s p hs b hb => hx s p hs b (List.mem_cons_of_mem _ hb))
      (fun s hs b hb => hq s hs b (List.mem_cons_of_mem _ hb))
      (fun s hs b hb => hm s hs b (List.mem_cons_of_mem _ hb))
      (hq s hs a List.mem_cons_self) hrest)

end Machine

/-! ### Calls -/

/-- The registers that a call saves, with their places. -/
def spills : List (Register × Nat) := [(.r1, 0), (.r2, 1), (.r3, 2), (.r4, 3), (.lr, 4)]

theorem savedSlots_eq : savedSlots = spills.map fun e => (e.1.target, e.2) := rfl

namespace Site

variable {p : Program} {T : Target} (x : Site p) (img : Image)

/-- The size of the frame of the caller. -/
abbrev size : Nat := x.function.frame.length

/-- The value of an argument. -/
def argument? (s : State T) : Argument → Option Word
  | .identifier name => (x.address? img s name).map s.mem
  | .literal l => l.word?
  | .register r => some (s.reg r)

/-- The words of a stack that a call with `m` arguments may write are not of the image. -/
def Clear (s : State T) (m : Nat) : Prop :=
  ∀ j, j < x.size + 5 + m → ∀ k, k < img.words.length → behind (s.reg .sf) j ≠ img.place k

/-- The state `u` in which a callee starts after a call from the state `s`. -/
structure Entered (entry : Word) (args : List Argument) (resume : Nat) (s u : State T) :
    Prop where
  /-- Execution goes on at the callee. -/
  pc : u.pc = entry
  /-- The callee's frame is behind that of the caller and the saved registers. -/
  sf : u.reg .sf = behind (s.reg .sf) (x.size + 5)
  /-- The callee finds where to resume. -/
  lr : u.reg .lr = img.place resume
  /-- The frame of the callee starts with the arguments. -/
  passed : ∀ k a, args[k]? = some a →
    x.argument? img s a = some (u.mem (behind (s.reg .sf) (x.size + 5 + k)))
  /-- Behind the frame of the caller are its registers. -/
  saved : ∀ e ∈ spills, u.mem (behind (s.reg .sf) (x.size + e.2)) = s.reg e.1
  /-- No other word has changed. -/
  other : ∀ a, (∀ j, x.size ≤ j → j < x.size + 5 + args.length → a ≠ behind (s.reg .sf) j) →
    u.mem a = s.mem a

/-- The state `v` behind a call that keeps `out` and was resumed in the state `u`, if the frame of
the caller is at `base`. -/
structure Returned (out : Register) (base : Word) (u v : State T) : Prop where
  /-- The frame is that of the caller. -/
  sf : v.reg .sf = base
  /-- The saved registers are back, all but the one that is kept. -/
  restored : ∀ e ∈ spills,
    v.reg e.1 = if e.1 = out then u.reg e.1 else u.mem (behind base (x.size + e.2))
  /-- No word has changed. -/
  mem : v.mem = u.mem
  /-- The flags have not changed. -/
  flags : v.flags = u.flags

/-- The state `u` between two arguments of a call from the state `s`, once those in `done` are
passed. -/
structure Marshalled (done : List Argument) (s u : State T) : Prop where
  sf : u.get .r6 = behind (s.get .r6) (x.size + 5)
  passed : ∀ k a, done[k]? = some a →
    x.argument? img s a = some (u.mem (behind (s.get .r6) (x.size + 5 + k)))
  saved : ∀ e ∈ savedSlots, u.mem (behind (s.get .r6) (x.size + e.2)) = s.get e.1
  other : ∀ a, (∀ j, x.size ≤ j → j < x.size + 5 + done.length → a ≠ behind (s.get .r6) j) →
    u.mem a = s.mem a

end Site

namespace Site

variable {p : Program} {o : Options} {T : Target} {x : Site p} {img : Image} {s u : State T}
  {done : List Argument} {m : Nat}

/-- The image is not touched. -/
theorem Marshalled.mem_place (h : x.Marshalled img done s u) (hc : x.Clear img s m)
    (hd : done.length ≤ m) {k : Nat} (hk : k < img.words.length) :
    u.mem (img.place k) = s.mem (img.place k) :=
  h.other _ fun j _ hj e => hc j (by omega) k hk e.symm

theorem Marshalled.stored (h : x.Marshalled img done s u) (hc : x.Clear img s m)
    (hd : done.length ≤ m) {k : Nat} {ws : List (Option Text × Instruction)}
    (hs : img.Stored T s.mem k ws) : img.Stored T u.mem k ws :=
  hs.congr fun _ hj hj' => h.mem_place hc hd (hs.lt_length hj hj')

/-- Storing one more argument. -/
theorem Marshalled.store (h : x.Marshalled img done s u) {a : Argument} {v : Word}
    (hv : x.argument? img s a = some v) (hlt : x.size + 5 + done.length < 2 ^ 16) :
    x.Marshalled img (done ++ [a]) s
      (u.write (behind (s.get .r6) (x.size + 5 + done.length)) v) := by
  have hne : ∀ j, j < x.size + 5 + done.length →
      behind (s.get .r6) j ≠ behind (s.get .r6) (x.size + 5 + done.length) := by
    intro j hj e
    have := behind_inj (by omega) hlt e
    omega
  refine ⟨h.sf, ?_, ?_, ?_⟩
  · intro k b hb
    rw [State.mem_write]
    rcases Nat.lt_or_ge k done.length with hk | hk
    · rw [List.getElem?_append_left hk] at hb
      rw [Function.update_of_ne (hne _ (by omega))]
      exact h.passed k b hb
    · rw [List.getElem?_append_right hk, List.getElem?_singleton] at hb
      split at hb
      · rename_i hk₀
        obtain rfl := Option.some.inj hb
        obtain rfl : k = done.length := by omega
        rw [Function.update_self, hv]
      · cases hb
  · intro e he
    have hlt : e.2 < 5 := by revert e; decide
    rw [State.mem_write, Function.update_of_ne (hne _ (by omega))]
    exact h.saved e he
  · intro b hb
    rw [List.length_append, List.length_singleton] at hb
    rw [State.mem_write, Function.update_of_ne (hb _ (by omega) (by omega))]
    exact h.other b fun j hj hj' => hb j hj (by omega)

/-- Only registers other than `sf` change while an argument is loaded. -/
theorem Marshalled.congr (h : x.Marshalled img done s u) {u' : State T} (hm : u'.mem = u.mem)
    (hsf : u'.get .r6 = u.get .r6) : x.Marshalled img done s u' :=
  ⟨hsf.trans h.sf, fun k a ha => hm ▸ h.passed k a ha, fun e he => hm ▸ h.saved e he,
    fun a ha => hm ▸ h.other a ha⟩

/-- **An argument is loaded into `r1`.** -/
theorem reaches_loaded (h : (compile p o).fault = none)
    (hi : img.words = (compile p o).listing.image) (hc : x.Clear img s m)
    (hd : done.length ≤ m) (hm : m ≤ 16) (hn : x.size ≤ 15) {a : Argument} {n t k : Nat}
    {es : List Emission} {w : Option Text} (hl : Loaded x.scope a n es t)
    (hu : x.Marshalled img done s u) (hs : img.Stored T u.mem k (wordsFrom w es)) :
    ∃ u' : State T, x.argument? img s a = some (u'.get .r1) ∧
      img.Reaches (u.jump (img.place k)) (u'.jump (img.place (k + (wordsFrom w es).length))) ∧
      u'.mem = u.mem ∧ u'.get .r6 = u.get .r6 := by
  have hg := Image.resolves h hi
  cases hl with
  | @global name _ hname =>
    rw [Image.wordsFrom_embedding] at hs ⊢
    obtain ⟨v, hv, hreach, hload⟩ := Image.reaches_embedding hg (by decide) hs
    obtain ⟨g, i, hgw, hga⟩ := Image.address?_global h hi ((isGlobal_iff h).1 hname)
    rw [Image.contents?_dataLabel, hga] at hv
    obtain rfl := Option.some.inj hv
    have hglobal : u.mem (img.place g) = s.mem (img.place g) :=
      hu.mem_place hc hd (List.getElem?_eq_some_iff.1 hgw).1
    rw [← State.mem_set u .r1 (img.place g)] at hload
    have hrun := hload.run (Image.exec_loadAt _ _ (by decide) (by decide))
    rw [State.set_get_set, State.mem_set] at hrun
    refine ⟨u.set .r1 (u.mem (img.place g)), ?_, hreach.trans hrun, State.mem_set _ _ _,
      State.get_set_of_ne _ (by decide) _⟩
    rw [argument?, address?_isGlobal h hname, hga, State.get_set_of_isSome _ rfl, hglobal]
    rfl
  | @slot name _ i hslot =>
    have hlt : i < x.size := lt_length_of_slot hslot
    simp only [wordsFrom_code, wordsFrom_nil] at hs ⊢
    -- back to the frame of the caller
    obtain ⟨r₁, h₁⟩ := hs.moveFrame hu.sf (j := x.size) (by omega)
    obtain ⟨r₂, h₂⟩ := h₁.moveFrame (State.get_set_of_isSome _ rfl _) (j := 0)
      (by change (x.size : Int) + -(x.size : Int) = _; omega)
    -- the variable is where it was
    have hsame : u.mem (behind (s.get .r6) i) = s.mem (behind (s.get .r6) i) := by
      refine hu.other _ fun j hj hj' e => ?_
      have := behind_inj (by omega) (by omega) e
      omega
    have r₃ := h₂.run (Image.exec_loadSlot _ _ (by decide) (by decide) _)
    rw [State.get_set_of_isSome _ rfl, behind_add_ofInt _ (j := i) (by omega), State.mem_set,
      State.mem_set, hsame] at r₃
    have h₃ := h₂.tail
    rw [← State.mem_set _ .r1 (s.mem (behind (s.get .r6) i))] at h₃
    -- and forth again
    obtain ⟨r₄, h₄⟩ := h₃.moveFrame (j := x.size)
      ((State.get_set_of_ne _ (by decide) _).trans (State.get_set_of_isSome _ rfl _))
      (by change ((0 : Nat) : Int) + (x.size : Int) = _; omega)
    obtain ⟨r₅, -⟩ := h₄.moveFrame (State.get_set_of_isSome _ rfl _) (j := x.size + 5) (by omega)
    refine ⟨_, ?_, r₁.trans (r₂.trans (r₃.trans (r₄.trans r₅))), ?_, ?_⟩
    · rw [argument?, address?_slot h hslot, State.set_set, State.get_set_of_ne _ (by decide),
        State.get_set_of_isSome _ rfl, BitVec.ofInt_natCast]
      rfl
    · simp only [State.mem_set]
    · rw [State.get_set_of_isSome _ rfl, hu.sf]
  | @small l _ v hv _ =>
    refine ⟨u.set .r1 (BitVec.ofInt 16 v), ?_, hs.run (Image.exec_movImm u _ (by decide) v),
      State.mem_set _ _ _, State.get_set_of_ne _ (by decide) _⟩
    rw [argument?, Literal.word?_of_value hv, State.get_set_of_isSome _ rfl]
  | @wide l _ v hv _ _ =>
    rw [← List.append_nil (embedding _ _ _), Image.wordsFrom_embedding] at hs ⊢
    obtain ⟨_, hc, hreach, -⟩ := Image.reaches_embedding hg (by decide) hs
    obtain rfl := Option.some.inj (Image.contents?_data _ v ▸ hc)
    refine ⟨_, ?_, hreach, State.mem_set _ _ _, State.get_set_of_ne _ (by decide) _⟩
    rw [argument?, Literal.word?_of_value hv, State.get_set_of_isSome _ rfl]
  | @register r _ slot hlook _ =>
    obtain ⟨l₁, l₂, hsplit, -⟩ := List.lookup_eq_some_iff.1 hlook
    have hmem : (r.target, slot) ∈ savedSlots := by rw [hsplit]; simp
    have hrun := hs.run (Image.exec_loadSlot u _ (by decide) (by decide) _)
    rw [hu.sf, behind_add_ofInt _ (j := x.size + slot) (by omega), hu.saved _ hmem] at hrun
    exact ⟨_, by rw [argument?, State.get_set_of_isSome _ rfl]; rfl, hrun, State.mem_set _ _ _,
      State.get_set_of_ne _ (by decide) _⟩

/-- **The arguments are passed one by one.** -/
theorem reaches_passed (h : (compile p o).fault = none)
    (hi : img.words = (compile p o).listing.image) (hc : x.Clear img s m) (hm : m ≤ 16)
    (hn : x.size ≤ 15) {args : List Argument} {j n t k : Nat} {es : List Emission}
    (hp : Passed x.scope j args n es t) (hj : j = done.length)
    (hd : done.length + args.length ≤ m) (hu : x.Marshalled img done s u)
    (hs : img.Stored T s.mem k (wordsFrom none es)) :
    ∃ u', img.Reaches (u.jump (img.place k))
        (u'.jump (img.place (k + (wordsFrom none es).length))) ∧
      x.Marshalled img (done ++ args) s u' := by
  induction hp generalizing done u k with
  | nil => exact ⟨u, .refl, by rwa [List.append_nil]⟩
  | @cons j a as n es _ fs t ha has ih =>
    subst hj
    rw [List.length_cons] at hd
    rw [wordsFrom_append, waiting_of_loaded ha, wordsFrom_code, Image.stored_append] at hs
    obtain ⟨hload, hstore⟩ := hs
    obtain ⟨u₁, hv, r₁, hmem, hsf⟩ := reaches_loaded h hi hc (by omega) hm hn ha hu
      (hu.stored hc (by omega) hload)
    have hu₁ := hu.congr hmem hsf
    have r₂ := (hu₁.stored hc (by omega) hstore).run
      (Image.exec_storeSlot u₁ _ (by decide) (by decide) _)
    rw [hu₁.sf, behind_add_ofInt _ (j := x.size + 5 + done.length) (by omega)] at r₂
    obtain ⟨u₂, r₃, hu₂⟩ := ih (by simp) (by simp; omega) (hu₁.store hv (by omega)) hstore.tail
    refine ⟨u₂, ?_, by rwa [← List.append_cons] at hu₂⟩
    have hlen : k + (wordsFrom none (es ++ .code (.storeSlot .r1 .r6 done.length) :: fs)).length
        = k + (wordsFrom none es).length + 1 + (wordsFrom none fs).length := by
      rw [wordsFrom_append, waiting_of_loaded ha, wordsFrom_code, List.length_append,
        List.length_cons]
      omega
    rw [hlen]
    exact r₁.trans (r₂.trans r₃)

/-- **The registers are saved.** -/
theorem reaches_saving (hc : x.Clear img s m) {k : Nat} {w : Option Text}
    (hs : img.Stored T s.mem k (wordsFrom w (saving x.size))) :
    ∃ u, img.Reaches (s.jump (img.place k)) (u.jump (img.place (k + 7))) ∧
      x.Marshalled img [] s u := by
  have hwords : wordsFrom w (saving x.size) = (w, .addImm .r6 .r6 x.size) ::
      ((savedSlots.map fun e => (none, .storeSlot e.1 .r6 e.2))
        ++ [(none, .addImm .r6 .r6 5)]) := rfl
  rw [hwords] at hs
  set base := behind (s.get .r6) x.size with hbase
  have hslot : ∀ e ∈ savedSlots, e.2 < 5 := by decide
  have hclear : ∀ e ∈ savedSlots, ∀ j, j < img.words.length → img.place j ≠ behind base e.2 := by
    intro e he j hj
    have := hslot e he
    rw [hbase, behind_behind]
    exact (hc _ (by omega) j hj).symm
  obtain ⟨r₁, h₁⟩ := hs.moveFrame (behind_zero _).symm (j := x.size) (by omega)
  obtain ⟨h₁, h₂⟩ := Image.stored_append.1 h₁
  have r₂ := Image.reaches_foldl (Q := fun u => u.get .r6 = base) (f := State.save base)
    (i := fun e => .storeSlot e.1 .r6 e.2) (l := savedSlots) ?_ (fun _ hu _ _ => hu) ?_
    (State.get_set_of_isSome _ rfl _) h₁
  · set s₁ := s.set .r6 base with hs₁
    have hget : ∀ r, r ≠ .r6 → s₁.get r = s.get r := fun r hr => s.get_set_of_ne hr.symm base
    have h₂ : img.Stored T (savedSlots.foldl (State.save base) s₁).mem (k + 1 + 5) _ :=
      h₂.congr fun j hj hj' => State.mem_foldl_save_of_ne fun e he =>
        hclear e he j (h₂.lt_length hj hj')
    obtain ⟨r₃, -⟩ := h₂.moveFrame (i := x.size) (j := x.size + 5)
      ((State.get_foldl_save _).trans (State.get_set_of_isSome _ rfl _)) (by omega)
    refine ⟨_, r₁.trans (r₂.trans r₃), State.get_set_of_isSome _ rfl _, by simp, ?_, ?_⟩
    · intro e he
      have hne : e.1 ≠ .r6 := by revert e; decide
      rw [State.mem_set, ← behind_behind, ← hbase, State.mem_foldl_save he (by decide)
        (fun e he => Nat.lt_trans (hslot e he) (by decide)), hget _ hne]
    · intro a ha
      rw [State.mem_set, State.mem_foldl_save_of_ne, hs₁, State.mem_set]
      intro e he
      have := hslot e he
      rw [hbase, behind_behind]
      exact ha _ (by omega) (by simp only [List.length_nil]; omega)
  · intro u q hu e he
    have hne : e.1 ≠ .r7 := by revert e; decide
    rw [Image.exec_storeSlot u q hne (by decide), hu, BitVec.ofInt_natCast]
    rfl
  · intro u _ e he j hj
    rw [State.save, State.mem_write, Function.update_of_ne (hclear e he j hj)]

theorem wordsFrom_entering (callee : Text) (n : Nat) (w : Option Text) :
    wordsFrom w (entering callee n) = [(w, .loadLabel .r5 (Label.generated (n + 2))),
      (none, .loadLabel .r1 (Label.generated n)), (none, .move .r7 .r1),
      (some (Label.generated n), .dataLabel (Label.function callee)),
      (some (Label.generated (n + 2)), .dataLabel (Label.generated (n + 1)))] := by
  simp [entering]

/-- **The callee is entered.** -/
theorem reaches_entering (hg : img.Resolves) {callee : Text} {n k : Nat} {w : Option Text}
    (hs : img.Stored T u.mem k (wordsFrom w (entering callee n))) {i : Instruction}
    (hres : img.words[k + 5]? = some (some (Label.generated (n + 1)), i)) {entry : Word}
    (he : img.address? (Label.function callee) = some entry) :
    img.Reaches (u.jump (img.place k))
      (((u.set .r5 (img.place (k + 5))).set .r1 entry).jump entry) := by
  rw [wordsFrom_entering] at hs
  obtain ⟨⟨hentry, hentryc⟩, ⟨hback, hbackc⟩, -⟩ := hs.tail.tail.tail
  rw [Image.contents?_dataLabel, he] at hentryc
  rw [Image.contents?_dataLabel, hg _ _ _ hres] at hbackc
  have r₁ := hs.run (Image.exec_loadLabel u _ (by decide) (hg _ _ _ hback))
  rw [← Option.some.inj hbackc] at r₁
  have h₁ := hs.tail
  rw [← State.mem_set u .r5 (img.place (k + 5))] at h₁
  have r₂ := h₁.run (Image.exec_loadLabel _ _ (by decide) (hg _ _ _ hentry))
  rw [State.mem_set, ← Option.some.inj hentryc] at r₂
  have h₂ := h₁.tail
  rw [← State.mem_set _ .r1 entry] at h₂
  have r₃ := h₂.run (Image.exec_move_r7 _ _ (by decide))
  rw [State.get_set_of_isSome _ rfl] at r₃
  exact r₁.trans (r₂.trans r₃)

theorem wordsFrom_restoring (n : Nat) (kept : Option Reg) (w : Option Text) :
    wordsFrom w (restoring n kept) = (w, .addImm .r6 .r6 (-5)) ::
      (((savedSlots.filter fun e => some e.1 ≠ kept).map fun e =>
        (none, .loadSlot e.1 .r6 e.2)) ++ [(none, .addImm .r6 .r6 (-n))]) := by
  have hcodes : restoring n kept = .code (.addImm .r6 .r6 (-5)) ::
      (((savedSlots.filter fun e => some e.1 ≠ kept).map fun e => Instruction.loadSlot e.1 .r6 e.2)
        ++ [Instruction.addImm .r6 .r6 (-n)]).map .code := by
    simp [restoring]
  rw [hcodes, wordsFrom_code, wordsFrom_map_code, List.map_append, List.map_map]
  rfl

/-- **The registers are restored**, all but the one that is kept. -/
theorem reaches_restoring {base : Word} (hsf : u.get .r6 = behind base (x.size + 5))
    {kept : Option Reg} {k : Nat} {w : Option Text}
    (hs : img.Stored T u.mem k (wordsFrom w (restoring x.size kept))) :
    ∃ t : State T, img.Reaches (u.jump (img.place k))
        (t.jump (img.place (k + (wordsFrom w (restoring x.size kept)).length))) ∧
      t.get .r6 = base ∧ t.mem = u.mem ∧ t.flags = u.flags ∧
      ∀ e ∈ savedSlots, t.get e.1 =
        if some e.1 = kept then u.get e.1 else u.mem (behind base (x.size + e.2)) := by
  rw [wordsFrom_restoring] at hs ⊢
  set l := savedSlots.filter fun e => some e.1 ≠ kept with hl
  have hmem : ∀ e ∈ l, e ∈ savedSlots := fun e he => (List.mem_filter.1 he).1
  have hne : ∀ e ∈ l, e.1 ≠ .r6 ∧ e.1 ≠ .r7 ∧ (cell e.1).isSome = true := by
    intro e he
    have hsaved : ∀ e ∈ savedSlots, e.1 ≠ .r6 ∧ e.1 ≠ .r7 ∧ (cell e.1).isSome = true := by decide
    exact hsaved e (hmem e he)
  set frame := behind base x.size with hframe
  obtain ⟨r₁, h₁⟩ := hs.moveFrame hsf (j := x.size) (by omega)
  obtain ⟨h₁, h₂⟩ := Image.stored_append.1 h₁
  have r₂ := Image.reaches_foldl (Q := fun u => u.get .r6 = frame) (f := State.restore frame)
    (i := fun e => .loadSlot e.1 .r6 e.2) (l := l) ?_ ?_ (fun u _ e _ j _ => by
      rw [State.restore, State.mem_set]) (State.get_set_of_isSome _ rfl _) h₁
  · have hother : ∀ r, r ≠ .r6 → (u.set .r6 frame).get r = u.get r :=
      fun r hr => u.get_set_of_ne hr.symm frame
    rw [← @State.mem_foldl_restore T _ frame l] at h₂
    obtain ⟨r₃, -⟩ := h₂.moveFrame (i := x.size) (j := 0) ((State.get_foldl_restore_of_ne
      fun e he => (hne e he).1).trans (State.get_set_of_isSome _ rfl _)) (by omega)
    rw [List.length_cons, List.length_append, List.length_map, List.length_singleton,
      show k + (l.length + 1 + 1) = k + 1 + l.length + 1 by omega]
    rw [List.length_map] at r₃
    refine ⟨_, r₁.trans (r₂.trans r₃), ?_, by simp, by simp, fun e he => ?_⟩
    · rw [State.get_set_of_isSome _ rfl, behind_zero]
    have hr : e.1 ≠ .r6 := by revert e; decide
    rw [State.get_set_of_ne _ hr.symm]
    split
    · rename_i hkept
      rw [State.get_foldl_restore_of_ne, hother _ hr]
      intro e' he' heq
      exact absurd (heq ▸ hkept) (by simpa using (List.mem_filter.1 he').2)
    · rename_i hkept
      have hel : e ∈ l := List.mem_filter.2 ⟨he, by simpa using hkept⟩
      have hnodup : (l.map Prod.fst).Nodup :=
        (show (savedSlots.map Prod.fst).Nodup by decide).sublist (List.filter_sublist.map _)
      rw [State.get_foldl_restore hel hnodup fun e he => (hne e he).2.2, State.mem_set, hframe,
        behind_behind]
  · intro u q hu e he
    rw [Image.exec_loadSlot u q (hne e he).2.1 (by decide), hu, BitVec.ofInt_natCast]
    rfl
  · intro u hu e he
    rw [State.restore, State.get_set_of_ne _ (hne e he).1, hu]

/-! ### Whole calls -/

theorem wordsFrom_call {callee : Text} {args : List Argument} {n t m : Nat} {es : List Emission}
    (ha : Passed x.scope 0 args n es t) (kept : Option Reg) (w : Option Text) (c c' c'' : Text) :
    wordsFrom w ([.comment c, .comment "Saving registers"] ++ saving m ++ argumentsRemark args
        ++ es ++ .comment c' :: entering callee t
        ++ [.comment c'', .label (Label.generated (t + 1))] ++ restoring m kept) =
      wordsFrom w (saving m) ++ wordsFrom none es ++ wordsFrom none (entering callee t)
        ++ wordsFrom (some (Label.generated (t + 1))) (restoring m kept) := by
  have hremark : wordsFrom none (argumentsRemark args) = [] ∧
      waiting none (argumentsRemark args) = none := by
    unfold argumentsRemark; split <;> exact ⟨rfl, rfl⟩
  have hsaving : ∀ w, waiting w (saving m) = none := fun _ => rfl
  have hentering : ∀ w, waiting w (entering callee t) = none := fun _ => rfl
  simp only [wordsFrom_append, waiting, wordsFrom_comment, wordsFrom_label,
    wordsFrom_nil, hsaving, hremark.1, hremark.2, waiting_of_passed ha, hentering,
    Label.isEmpty_generated, List.nil_append, List.append_nil, List.append_assoc,
    Option.toList_none, List.map_nil, if_false, Bool.false_eq_true]

/-- The label of a callee is an address. -/
theorem address?_callee (h : (compile p o).fault = none)
    (hi : img.words = (compile p o).listing.image) {callee : Text} {k : Nat}
    (hk : x.scope.symbols.arity? callee = some k) :
    ∃ entry, img.address? (Label.function callee) = some entry := by
  obtain ⟨_, _, _, hentry⟩ := Image.address?_own h hi (l := Label.function callee) (by simp)
    fun y => by
      rw [symbols_scope y] at hk
      have hmem := y.mem_functions_of_arity hk
      simp only [List.mem_map] at hmem
      obtain ⟨f, hf, rfl⟩ := hmem
      exact List.mem_append_right _ (List.mem_append_right _ (List.mem_append_left _
        (List.mem_map_of_mem hf)))
  exact ⟨_, hentry⟩

end Site

section Convention

variable {p : Program} {o : Options} {T : Target} {img : Image} {x : Site p}

/-- **The way into a callee.** -/
theorem Site.reaches_entered (h : (compile p o).fault = none)
    (hi : img.words = (compile p o).listing.image) {callee : Text} {args : List Argument}
    {out : Register} {n t k : Nat} {es : List Emission} {w : Option Text} {s : State T}
    (hcall : Callable x.scope callee args out) (ha : Passed x.scope 0 args n es t)
    (hs : img.Stored T s.mem k (wordsFrom w (saving x.size) ++ wordsFrom none es
      ++ wordsFrom none (entering callee t)))
    (hclear : x.Clear img s args.length) {i : Instruction}
    (hres : img.words[k + 7 + (wordsFrom none es).length + 5]?
      = some (some (Label.generated (t + 1)), i))
    {entry : Word} (hentry : img.address? (Label.function callee) = some entry) :
    ∃ u, img.Reaches (s.jump (img.place k)) u ∧
      x.Entered img entry args (k + 7 + (wordsFrom none es).length + 5) s u := by
  have hlen : (wordsFrom w (saving x.size)).length = 7 := rfl
  rw [Image.stored_append, Image.stored_append, List.length_append, ← Nat.add_assoc, hlen] at hs
  obtain ⟨⟨hsave, hpass⟩, henter⟩ := hs
  obtain ⟨u₁, r₁, hu₁⟩ := reaches_saving hclear hsave
  obtain ⟨u₂, r₂, hu₂⟩ := reaches_passed h hi hclear hcall.args_le hcall.frame_le ha rfl (by simp)
    hu₁ hpass
  rw [List.nil_append] at hu₂
  have r₃ := reaches_entering (Image.resolves h hi) (hu₂.stored hclear (Nat.le_refl _) henter) hres
    hentry
  have hmem : (((u₂.set .r5 (img.place (k + 7 + (wordsFrom none es).length + 5))).set .r1
      entry).jump entry).mem = u₂.mem := by
    rw [State.mem_jump, State.mem_set, State.mem_set]
  refine ⟨_, r₁.trans (r₂.trans r₃), State.pc_jump _ _, ?_, ?_, ?_, ?_, ?_⟩
  · rw [State.reg, State.get_jump _ (by decide), State.get_set_of_ne _ (by decide),
      State.get_set_of_ne _ (by decide)]
    exact hu₂.sf
  · rw [State.reg, State.get_jump _ (by decide), State.get_set_of_ne _ (by decide)]
    exact State.get_set_of_isSome _ rfl _
  · rw [hmem]
    exact hu₂.passed
  · rw [hmem]
    exact fun e he => hu₂.saved (e.1.target, e.2) (savedSlots_eq ▸ List.mem_map_of_mem he)
  · rw [hmem]
    exact hu₂.other

/-- **The way back from a callee.** -/
theorem Site.reaches_returned {out : Register} {k : Nat} {w : Option Text} {u : State T}
    {base : Word}
    (hsf : u.reg .sf = behind base (x.size + 5))
    (hs : img.Stored T u.mem k (wordsFrom w (restoring x.size (keptReg out)))) :
    ∃ v : State T, img.Reaches (u.jump (img.place k)) v ∧
      v.pc = img.place (k + (wordsFrom w (restoring x.size (keptReg out))).length) ∧
      x.Returned out base u v := by
  obtain ⟨v, hr, hbase, hmem, hflags, hregs⟩ := reaches_restoring hsf hs
  refine ⟨_, hr, State.pc_jump _ _, ?_, fun e he => ?_, hmem, hflags⟩
  · rw [State.reg, State.get_jump _ (by decide)]
    exact hbase
  have hne : e.1.target ≠ .r7 := by revert e; decide
  have hkept : some e.1.target = keptReg out ↔ e.1 = out := by
    simp only [spills, List.mem_cons, List.not_mem_nil, or_false] at he
    rcases he with rfl | rfl | rfl | rfl | rfl <;> cases out <;> simp [keptReg, Register.target]
  rw [State.reg, State.get_jump _ hne,
    hregs (e.1.target, e.2) (savedSlots_eq ▸ List.mem_map_of_mem he)]
  simp only [hkept]
  rfl

/-- **The calling convention.**  A call of a program that compiles has a word to resume at.

From the first word of the call, if the stack is clear of the image, execution reaches the callee
with the frame, the arguments and the saved registers in place (`Site.Entered`).  From the word to
resume at, with `sf` where the callee found it, execution reaches the word behind the call with
the caller's registers restored (`Site.Returned`). -/
theorem call_convention (h : (compile p o).fault = none)
    (hi : img.words = (compile p o).listing.image) {callee : Text} {args : List Argument}
    {out : Register} (hx : x.statement = .call callee args out) :
    ∃ resume entry, x.start o < resume ∧ resume < x.stop o ∧
      img.address? (Label.function callee) = some entry ∧
      (∀ s : State T, s.pc = img.place (x.start o) →
        (∀ k, x.start o ≤ k → k < resume → img.Intact T s.mem k) → x.Clear img s args.length →
        ∃ u, img.Reaches s u ∧ x.Entered img entry args resume s u) ∧
      ∀ (u : State T) (base : Word), u.pc = img.place resume →
        (∀ k, resume ≤ k → k < x.stop o → img.Intact T u.mem k) →
        u.reg .sf = behind base (x.size + 5) →
        ∃ v, img.Reaches u v ∧ v.pc = img.place (x.stop o) ∧ x.Returned out base u v := by
  obtain ⟨n, es, t, w, pre, post, hl, himg, hstart, hstop⟩ := x.placed o h
  rw [hx] at hl
  cases hl with
  | @call _ _ _ _ es t hcall ha =>
    have hframe : x.scope.frame.length = x.size := rfl
    rw [Site.wordsFrom_call ha, hframe] at himg hstop
    set into := wordsFrom w (saving x.size) ++ wordsFrom none es
      ++ wordsFrom none (entering callee t) with hinto
    set back := wordsFrom (some (Label.generated (t + 1))) (restoring x.size (keptReg out))
      with hback
    have hlen : into.length = 7 + (wordsFrom none es).length + 5 := by
      rw [hinto, List.length_append, List.length_append, Site.wordsFrom_entering]; rfl
    rw [List.length_append, ← Nat.add_assoc] at hstop
    have hwords : img.words = pre ++ into ++ (back ++ post) := by
      rw [hi, himg]; simp only [List.append_assoc]
    obtain ⟨i, rest, hcons⟩ : ∃ i rest, back = (some (Label.generated (t + 1)), i) :: rest :=
      ⟨_, _, Site.wordsFrom_restoring _ _ _⟩
    have hpos : 0 < back.length := by rw [hcons]; simp
    obtain ⟨resume, hresume⟩ : ∃ k, k = pre.length + 7 + (wordsFrom none es).length + 5 :=
      ⟨_, rfl⟩
    have hto : (pre ++ into).length = resume := by rw [List.length_append]; omega
    have hword : img.words[resume]? = some (some (Label.generated (t + 1)), i) := by
      rw [hwords, hcons, ← hto]; simp
    obtain ⟨entry, hentry⟩ := Site.address?_callee h hi hcall.arity
    refine ⟨resume, entry, by omega, by omega, hentry, fun s hpc hm hclear => ?_,
      fun u base hpc hm hsf => ?_⟩
    · have hstored := Image.stored_of_intact hwords fun j hj hj' => hm j (by omega) (by omega)
      obtain ⟨u, hr, hu⟩ := Site.reaches_entered h hi hcall ha hstored hclear (hresume ▸ hword)
        hentry
      rw [hstart, ← hpc, State.jump_pc] at hr
      exact ⟨u, hr, hresume ▸ hu⟩
    · have hstored : img.Stored T u.mem (pre ++ into).length back :=
        Image.stored_of_intact (by rw [hwords, List.append_assoc (pre ++ into)]) fun j hj hj' =>
          hm j (by omega) (by rw [List.length_append] at hj'; omega)
      obtain ⟨v, hr, hv, hret⟩ := Site.reaches_returned hsf hstored
      rw [hto, ← hpc, State.jump_pc] at hr
      rw [← hback, List.length_append, hstop] at hv
      exact ⟨v, hr, hv, hret⟩

end Convention

/-! ### A call with arguments of all kinds, right after loading -/

/-- The arguments: a global, a local, a wide literal and a register. -/
def mixedArguments : List Argument :=
  [.identifier "g", .identifier "v", .literal ⟨.decimal, "1000"⟩, .register .lr]

/-- The caller. -/
def mixedCaller : Function :=
  { name := "main", body := [.declare "v", .call "f" mixedArguments .r3] }

/-- A program with the call. -/
def mixedProgram : Program :=
  [.global "g" (.literal ⟨.decimal, "7"⟩), .function mixedCaller,
    .function { name := "f", params := ["a", "b", "c", "d"], body := [.nop] }]

/-- The call. -/
def mixedSite : Site mixedProgram where
  earlier := []
  function := mixedCaller
  later := [{ name := "f", params := ["a", "b", "c", "d"], body := [.nop] }]
  functions_eq := rfl
  before := [.declare "v"]
  statement := .call "f" mixedArguments .r3
  after := []
  body_eq := rfl

/-- The program from address 16 on. -/
def mixedImage : Image where
  origin := 16
  words := (compile mixedProgram {}).listing.image
  fits := by decide

/-- The state at a word of the program, with `sf` at an address. -/
def mixedState (k : Nat) (sf : Word) : State plainTarget :=
  ((State.mk (fun _ => 5) (mixedImage.loaded plainTarget) (0, 0)).set .r6 sf).jump
    (mixedImage.place k)

theorem call_convention_mixed :
    ∃ resume entry, mixedImage.address? (Label.function "f") = some entry ∧
      (∃ u, mixedImage.Reaches (mixedState (mixedSite.start {}) 0xFFFA) u ∧
        mixedSite.Entered mixedImage entry mixedArguments resume
          (mixedState (mixedSite.start {}) 0xFFFA) u) ∧
      ∃ v, mixedImage.Reaches (mixedState resume 0) v ∧
        v.pc = mixedImage.place (mixedSite.stop {}) ∧
        mixedSite.Returned .r3 0xFFFA (mixedState resume 0) v := by
  have hlinked : mixedImage.linked = true := by decide
  have hfault : (compile mixedProgram {}).fault = none := by decide
  have hstop : mixedSite.stop {} ≤ mixedImage.words.length := mixedSite.stop_le _ hfault
  have hclear : mixedSite.Clear mixedImage (mixedState (mixedSite.start {}) 0xFFFA)
      mixedArguments.length := by
    unfold Site.Clear; decide
  have hsf : (0 : Word) = behind 0xFFFA (mixedSite.size + 5) := by decide
  obtain ⟨resume, entry, -, hlt, hentry, into, back⟩ := @call_convention mixedProgram {}
    plainTarget mixedImage mixedSite hfault rfl _ _ _ rfl
  refine ⟨resume, entry, hentry, into _ rfl (fun k _ hk => ?_) hclear,
    back _ _ rfl (fun k _ hk => ?_) hsf⟩
  · exact Image.intact_loaded hlinked (by omega)
  · exact Image.intact_loaded hlinked (by omega)

end StumpGen
