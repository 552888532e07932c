import StumpGen.Proofs.Acceptance
import StumpGen.Proofs.Bag
import StumpGen.Proofs.FileEffects

/-!
# Whether a job reports the fault that stops it

The diagnostics of a job go into a bag that has room for a limited number of them.  Warnings come
first, so they can take the room of the fault.

* `Bag.mem_addAll_empty` : what a bag keeps of some warnings and an error.
* `compile_warnings` : there are at most two warnings, one about the entry and one about the size.
* `Job.fault_reported` : **the fault of a job is reported exactly if the warnings leave room for
  it**.  It is always reported by a job with the usual limit, and by a job that cannot load its
  program.
-/

namespace StumpGen

/-! ### Bags -/

namespace Bag

/-- What a new bag keeps of some warnings, an error and what comes behind it. -/
theorem mem_addAll_empty {ws : List Diagnostic} (hws : ∀ w ∈ ws, w.severity = .warning)
    {d : Diagnostic} (hd : d.severity = .error) (max : Int) (ts : List Diagnostic) :
    (d ∈ ((empty max).addAll (ws ++ [d] ++ ts)).items ↔ ws.length < (limitOf max).toNat) ∧
      (d ∈ ((empty max).addAll (ws ++ [d] ++ ts)).items ↔
        ((empty max).addAll (ws ++ [d] ++ ts)).hasErrors = true) := by
  have hitems : ((empty max).addAll (ws ++ [d] ++ ts)).items =
      (ws ++ d :: ts).take (limitOf max).toNat := by
    rw [items_addAll]
    simp [empty, size]
  have herrors (b : Bag) :
      b.hasErrors = true ↔ ∃ x ∈ b.items, x.severity.atLeast .error = true := by
    simp [hasErrors, has]
  rw [herrors, hitems]
  by_cases hlt : ws.length < (limitOf max).toNat
  · obtain ⟨k, hk⟩ := Nat.exists_eq_add_of_lt hlt
    have hmem : d ∈ (ws ++ d :: ts).take (limitOf max).toNat := by
      rw [hk, List.take_append]
      have : ws.length + k + 1 - ws.length = k + 1 := by omega
      rw [this, List.take_succ_cons]
      simp
    simp only [hmem, hlt, true_iff, true_and]
    exact ⟨d, hmem, by rw [hd]; rfl⟩
  · have htake : (ws ++ d :: ts).take (limitOf max).toNat = ws.take (limitOf max).toNat :=
      List.take_append_of_le_length (by omega)
    have hwarnings : ∀ x ∈ (ws ++ d :: ts).take (limitOf max).toNat, x.severity = .warning := by
      rw [htake]
      exact fun x hx => hws x (List.mem_of_mem_take hx)
    have hmem : d ∉ (ws ++ d :: ts).take (limitOf max).toNat := fun h => by
      cases hd.symm.trans (hwarnings d h)
    simp only [hmem, hlt, false_iff, true_and]
    rintro ⟨x, hx, he⟩
    rw [hwarnings x hx] at he
    cases he

end Bag

/-! ### Warnings -/

open Lowering Assembly Emitter

/-- The warnings about a program.  The entry is looked for when the declarations are known, and the
size when there is a whole image. -/
def Program.warnings (p : Program) (o : Options) : List Diagnostic :=
  (if p.Declarable ∧ ∀ f ∈ p.functions, f.name ≠ o.effective.entry then
      [Compilation.entryWarning o.effective.entry] else [])
    ++ (if p.WellFormed ∧ (compile p o).stats.isExceeded = true then
      [Compilation.capacityWarning (compile p o).stats] else [])

theorem compile_warnings (p : Program) (o : Options) : (compile p o).warnings = p.warnings o := by
  simp only [Program.warnings, ← compile_fault_eq_none (o := o)]
  cases hc : (collect p {}).result with
  | error e =>
    have hd : ¬ p.Declarable := fun hd => by
      obtain ⟨_, _, h⟩ := exists_runs_collect hd (s := {}) (by simp) (by simp)
      cases hc.symm.trans h.result
    simp [compile, hc, hd]
  | ok u =>
    have hd : p.Declarable := declarable_of_runs (runs_of_result hc)
    have hentry (name : Text) :
        ((collect p {}).state.arity? name).isSome = false ↔ ∀ f ∈ p.functions, f.name ≠ name := by
      obtain ⟨-, -, hf, -⟩ := runs_collect (runs_of_result hc)
      rw [Option.isSome_eq_false_iff, Option.isNone_iff_eq_none, arity?_eq_none_iff, hf]
      simp
    simp only [compile, hc, hd, true_and, ← hentry]
    cases hf : Compilation.firstFault (generate (collect p {}).state 0 (Program.functions p)) with
    | some e => cases ((collect p {}).state.arity? o.effective.entry).isSome <;> simp
    | none =>
      cases ((collect p {}).state.arity? o.effective.entry).isSome <;> simp [Compilation.stats]

theorem Program.warnings_severity {p : Program} {o : Options} :
    ∀ w ∈ p.warnings o, w.severity = .warning := by
  intro w hw
  rcases List.mem_append.1 hw with hw | hw
  · split at hw
    · obtain rfl := List.mem_singleton.1 hw; rfl
    · cases hw
  · split at hw
    · obtain rfl := List.mem_singleton.1 hw; rfl
    · cases hw

theorem Program.length_warnings (p : Program) (o : Options) : (p.warnings o).length ≤ 2 := by
  rw [Program.warnings, List.length_append]
  split <;> split <;> simp

/-! ### Jobs -/

namespace Job

variable {r : Request} {t : FileTree} {f : Fault}

/-- The warnings of a job that compiles its program. -/
def warnings (r : Request) (t : FileTree) : List Diagnostic :=
  match loaded r t with
  | .error _ => []
  | .ok (_, p) => p.warnings r.options

/-- A job that is stopped ends with the warnings about its program. -/
theorem run_fault (h : (t.perform (run r)).1.fault = some f) :
    ∃ e : Ending, (t.perform (run r)).1 = r.result e ∧ e.fault = some f ∧
      e.warnings = warnings r t := by
  cases hl : loaded r t with
  | error f' =>
    obtain ⟨runs, hr⟩ := run_error hl
    rw [hr] at h ⊢
    exact ⟨_, rfl, h, by simp [warnings, hl]⟩
  | ok a =>
    obtain ⟨contents, p⟩ := a
    cases he : fresh? r t contents with
    | some e =>
      obtain ⟨runs, hr⟩ := run_fresh hl he
      rw [hr] at h
      cases h
    | none =>
      obtain ⟨⟨e, hr, hfollows⟩, -⟩ := run_stale (fun _ => True) hl he
      rw [hr] at h ⊢
      refine ⟨e, rfl, h, ?_⟩
      rw [hfollows.warnings, compile_warnings]
      simp [warnings, hl]

theorem warnings_severity : ∀ w ∈ warnings r t, w.severity = .warning := by
  unfold warnings
  cases loaded r t with
  | error f => exact nofun
  | ok a => exact Program.warnings_severity

theorem length_warnings (r : Request) (t : FileTree) : (warnings r t).length ≤ 2 := by
  unfold warnings
  cases loaded r t with
  | error f => exact Nat.zero_le 2
  | ok a => exact a.2.length_warnings r.options

/-- **The fault that stops a job is reported exactly if the warnings leave room for it**, and a job
that does not report its fault reports no error at all.  As there are at most two warnings, this
cannot happen unless the limit is one or two. -/
theorem fault_reported (h : (t.perform (run r)).1.fault = some f) :
    (f.diagnostic ∉ (t.perform (run r)).1.bag.items ↔
      0 < r.maxDiagnostics ∧ r.maxDiagnostics ≤ (warnings r t).length) ∧
    (f.diagnostic ∈ (t.perform (run r)).1.bag.items ↔
      (t.perform (run r)).1.bag.hasErrors = true) ∧
    (warnings r t).length ≤ 2 := by
  obtain ⟨e, hr, hf, hw⟩ := run_fault h
  have hlength := length_warnings r t
  have hbag : (t.perform (run r)).1.bag = (Bag.empty r.maxDiagnostics).addAll
      (warnings r t ++ [f.diagnostic] ++
        if r.timings then [timingsRemark r.input ⟨e.runs.map Run.phase⟩] else []) := by
    rw [hr, Request.result, hf, hw]
  obtain ⟨hmem, herrors⟩ := Bag.mem_addAll_empty (warnings_severity (r := r) (t := t))
    (d := f.diagnostic) rfl r.maxDiagnostics
    (if r.timings then [timingsRemark r.input ⟨e.runs.map Run.phase⟩] else [])
  rw [hbag]
  refine ⟨?_, herrors, hlength⟩
  rw [hmem, Bag.toNat_limitOf]
  split <;> omega

/-- A tree with a program that reads an unknown variable. -/
def strayTree : FileTree where
  entries := [(["a.toml"], .file
    ("[[element]]\nkind = \"function\"\nname = \"main\"\n\n"
      ++ "  [[element.body]]\n  op = \"load\"\n  dest = \"r1\"\n  name = \"missing\"\n"))]

/-- A job that enters the program at a function that is not there, and keeps one diagnostic. -/
def tightJob : Request where
  input := "a.toml"
  output := "o"
  options := { entry := "start" }
  maxDiagnostics := 1

/-- A fault that is not reported: the warning about the entry has taken its room. -/
theorem fault_reported_tightJob :
    ∃ f, (strayTree.perform (run tightJob)).1.fault = some f ∧
      f.location = { file := "a.toml", element := "main", statement := 1 } ∧
      f.diagnostic ∉ (strayTree.perform (run tightJob)).1.bag.items ∧
      (strayTree.perform (run tightJob)).1.bag.hasErrors = false := by
  have hvalues : (strayTree.perform (run tightJob)).1.fault.map Fault.location =
        some { file := "a.toml", element := "main", statement := 1 } ∧
      (warnings tightJob strayTree).length = 1 := by decide +kernel
  obtain ⟨f, hf, hplace⟩ := Option.map_eq_some_iff.1 hvalues.1
  obtain ⟨hlost, herrors, -⟩ := fault_reported hf
  have hmem := hlost.2 (by rw [hvalues.2]; decide)
  refine ⟨f, hf, hplace, hmem, ?_⟩
  rwa [herrors, Bool.not_eq_true] at hmem

end Job

end StumpGen
