import StumpGen.Build
import StumpGen.Proofs.Independence
import Mathlib.Data.List.FinRange

/-!
# Jobs that take turns

Several jobs work in one tree.  Each takes its four steps one by one (`Job.advance`), and a
schedule says whose turn it is.  If no job puts anything where another one looks
(`Job.Independent`), the schedule makes no difference.

The invariant is that the tree is *merged* from the trees that the jobs would make alone
(`Job.Merged`): a place that no job alone changes is as it was at the start, and a place that
some job alone changes is as this job makes it.  A merged tree shows each job the same as the
tree that it would make alone (`Independent.seesSame`), so its next step does the same in both,
and the tree stays merged (`Independent.merged_step`).

* `Job.after_run` : four steps are a whole job.
* `Job.Independent.interleave_merged` : after each step of a schedule, each job is where it would
  be alone, and the tree is merged.
* `Job.Independent.interleave_done` : **when all jobs have ended**, each has the result that it has
  alone.
-/

namespace StumpGen

namespace Job

open FileTree

/-! ### Steps -/

/-- How far a job has come. -/
inductive Stage where
  /-- Nothing has been done. -/
  | start
  /-- The program is loaded. -/
  | loaded (l : Loaded)
  /-- The output is not up to date, and code is generated. -/
  | generated (g : Generated)
  /-- The listing is written. -/
  | written (g : Generated)
  /-- The job has ended. -/
  | done (res : Result)

/-- The result of a job that has ended. -/
def Stage.result? : Stage → Option Result
  | .done res => some res
  | _ => none

section Actions

variable {m : Type → Type} [Monad m] [Host m] {n : Nat}

/-- One step of a job. -/
def advance (r : Request) : Stage → m Stage
  | .start => do
    match ← load r with
    | .error res => pure (.done res)
    | .ok l => pure (.loaded l)
  | .loaded l => do
    match ← check r l with
    | .error res => pure (.done res)
    | .ok g => pure (.generated g)
  | .generated g => do
    match ← write r g with
    | .error res => pure (.done res)
    | .ok g => pure (.written g)
  | .written g => do
    let res ← store r g
    pure (.done res)
  | .done res => pure (.done res)

/-- One step of one of several jobs. -/
def advanceAt (jobs : Fin n → Request) (stages : Fin n → Stage) (i : Fin n) :
    m (Fin n → Stage) := do
  let stage ← advance (jobs i) (stages i)
  pure (Function.update stages i stage)

/-- Several jobs take steps in turn, as a schedule says. -/
def interleave (jobs : Fin n → Request) (schedule : List (Fin n)) (stages : Fin n → Stage) :
    m (Fin n → Stage) :=
  schedule.foldlM (advanceAt jobs) stages

end Actions

/-- The stage and the tree that a job alone comes to from `t` with the given number of steps. -/
def after (r : Request) (t : FileTree) : Nat → Stage × FileTree
  | 0 => (.start, t)
  | n + 1 => (after r t n).2.perform (advance r (after r t n).1)

/-- **Four steps are a whole job.** -/
theorem after_run (r : Request) (t : FileTree) {n : Nat} (hn : 4 ≤ n) :
    after r t n = (.done (t.perform (run r)).1, (t.perform (run r)).2) := by
  induction n, hn using Nat.le_induction with
  | base =>
    simp only [after, advance, run, perform_bind]
    rcases t.perform (load r) with ⟨res | l, t₁⟩
    · rfl
    simp only [perform_bind, perform_pure]
    rcases t₁.perform (check r l) with ⟨res | g, t₂⟩
    · rfl
    simp only [perform_bind, perform_pure]
    rcases t₂.perform (write r g) with ⟨res | g', t₃⟩
    · rfl
    · rfl
  | succ n _ ih =>
    rw [after, ih]
    rfl

theorem Request.SeesSame.refl (r : Request) (t : FileTree) : r.SeesSame t t :=
  ⟨rfl, .refl t _, .refl t _, fun _ _ => .refl t _⟩

theorem advance_echoes {r : Request} {t t' : FileTree} (hr : r.Tidy) (ht : r.Ready t)
    (ht' : r.Ready t') (hs : r.SeesSame t t') (stage : Stage) :
    Echoes (r.Touches t.current) t t' (advance r stage) := by
  cases stage with
  | start =>
    refine (load_echoes hr ht ht' hs).bind_pure fun found => ?_
    cases found <;> exact ⟨_, rfl⟩
  | loaded l =>
    refine (check_echoes hr ht ht' hs l).bind_pure fun found => ?_
    cases found <;> exact ⟨_, rfl⟩
  | generated g =>
    refine (write_echoes hr ht ht' hs g).bind_pure fun written => ?_
    cases written <;> exact ⟨_, rfl⟩
  | written g => exact (store_echoes hr ht ht' hs g).bind_pure fun _ => ⟨_, rfl⟩
  | done res => exact .pure _ t t' _

/-! ### Schedules -/

section Schedules

variable {n : Nat} (jobs : Fin n → Request) (t : FileTree)

theorem perform_advanceAt (stages : Fin n → Stage) (i : Fin n) :
    t.perform (advanceAt jobs stages i) =
      (Function.update stages i (t.perform (advance (jobs i) (stages i))).1,
        (t.perform (advance (jobs i) (stages i))).2) := rfl

theorem perform_interleave_nil (stages : Fin n → Stage) :
    t.perform (interleave jobs [] stages) = (stages, t) := rfl

theorem perform_interleave_append (s s' : List (Fin n)) (stages : Fin n → Stage) :
    t.perform (interleave jobs (s ++ s') stages) =
      (t.perform (interleave jobs s stages)).2.perform
        (interleave jobs s' (t.perform (interleave jobs s stages)).1) := by
  rw [interleave, List.foldlM_append, perform_bind]
  rfl

theorem perform_interleave_concat (s : List (Fin n)) (i : Fin n) (stages : Fin n → Stage) :
    t.perform (interleave jobs (s ++ [i]) stages) =
      (t.perform (interleave jobs s stages)).2.perform
        (advanceAt jobs (t.perform (interleave jobs s stages)).1 i) := by
  rw [perform_interleave_append]
  rfl

/-- Jobs that are not in a schedule do nothing. -/
theorem interleave_of_notMem {s : List (Fin n)} {i : Fin n} (hi : i ∉ s) (stages : Fin n → Stage) :
    (t.perform (interleave jobs s stages)).1 i = stages i := by
  induction s using List.reverseRecOn with
  | nil => rfl
  | append_singleton s j ih =>
    rw [List.mem_append, List.mem_singleton, not_or] at hi
    rw [perform_interleave_concat, perform_advanceAt, ← ih hi.1]
    exact Function.update_of_ne hi.2 _ _

/-- A job that takes all turns. -/
theorem interleave_replicate {i : Fin n} {stages : Fin n → Stage} (hi : stages i = .start)
    (m : Nat) : t.perform (interleave jobs (List.replicate m i) stages) =
      (Function.update stages i (after (jobs i) t m).1, (after (jobs i) t m).2) := by
  induction m with
  | zero =>
    rw [List.replicate_zero, perform_interleave_nil, after, ← hi, Function.update_eq_self]
  | succ m ih =>
    rw [List.replicate_succ', perform_interleave_concat, ih, perform_advanceAt]
    simp only [Function.update_self, Function.update_idem, after]

end Schedules

/-! ### Independent jobs -/

/-- The places that a job looks at. -/
def Request.Visits (r : Request) (current k : Place) : Prop :=
  k = target current r.input ∨ k = target current r.output ∨
    ∃ c, r.cache = some c ∧ k = target current (c.entryPath r.output)

/-- Jobs that do not get in each other's way: none puts a file on the way to a place that another
one looks at, makes a directory there, or puts a file where the cache is. -/
structure Independent {n : Nat} (jobs : Fin n → Request) (t : FileTree) : Prop where
  tidy : ∀ i, (jobs i).Tidy
  start : ∀ i, (jobs i).Ready t
  file : ∀ i j, i ≠ j → ∀ p, (jobs i).Visits t.current p →
    ∀ k x, (jobs j).Touches t.current k (.file x) → ¬ k <+: p
  directory : ∀ i j, i ≠ j → ∀ p, (jobs i).Visits t.current p →
    ¬ (jobs j).Touches t.current p .directory
  cache : ∀ i j c, (jobs i).cache = some c →
    ∀ x, ¬ (jobs j).Touches t.current (target t.current c.directory) (.file x)

/-- A tree that a job has made out of another one. -/
structure Request.Confined (r : Request) (t u : FileTree) : Prop where
  grown : Extends t u
  change : ∀ k, u.get? k = t.get? k ∨ ∃ e, r.Touches t.current k e ∧ u.get? k = some e

/-- All that several jobs have done to a tree, each of them alone, is done in one tree. -/
structure Merged {n : Nat} (t₀ : FileTree) (alone : Fin n → FileTree) (t : FileTree) : Prop where
  grown : Extends t₀ t
  kept : ∀ k, (∀ i, (alone i).get? k = t₀.get? k) → t.get? k = t₀.get? k
  made : ∀ i k, (alone i).get? k ≠ t₀.get? k → t.get? k = (alone i).get? k

theorem Merged.unique {n : Nat} {t₀ t t' : FileTree} {alone : Fin n → FileTree}
    (h : Merged t₀ alone t) (h' : Merged t₀ alone t') (k : Place) : t.get? k = t'.get? k := by
  by_cases hk : ∀ i, (alone i).get? k = t₀.get? k
  · rw [h.kept k hk, h'.kept k hk]
  · push Not at hk
    obtain ⟨i, hi⟩ := hk
    rw [h.made i k hi, h'.made i k hi]

namespace Independent

variable {n : Nat} {jobs : Fin n → Request} {t₀ t : FileTree} {alone : Fin n → FileTree}

/-- What two jobs may put at one place is a directory. -/
theorem touches_eq (h : Independent jobs t₀) {i j : Fin n} (hij : i ≠ j) {k : Place}
    {e e' : FileTree.Entry} (he : (jobs i).Touches t₀.current k e)
    (he' : (jobs j).Touches t₀.current k e') : e = e' := by
  -- a job looks at the places of its own files
  have hvisits {i : Fin n} {x : Text} (hx : (jobs i).Touches t₀.current k (.file x)) :
      (jobs i).Visits t₀.current k := .inr hx
  cases e with
  | file x =>
    cases e' with
    | file y => exact absurd List.prefix_rfl (h.file i j hij k (hvisits he) k y he')
    | directory => exact absurd he' (h.directory i j hij k (hvisits he))
  | directory =>
    cases e' with
    | file y => exact absurd he (h.directory j i hij.symm k (hvisits he'))
    | directory => rfl

theorem ready (h : Independent jobs t₀) (i : Fin n) {u : FileTree} (hu : Extends t₀ u)
    (hchange : ∀ k, u.get? k = t₀.get? k ∨
      ∃ j e, (jobs j).Touches t₀.current k e ∧ u.get? k = some e) : (jobs i).Ready u := by
  refine ⟨hu.sound (h.start i).sound, fun c hc => ?_⟩
  rw [hu.current]
  rcases hchange (target t₀.current c.directory) with hk | ⟨j, e, he, hk⟩
  · rw [hk, (h.start i).cache c hc]
  · cases e with
    | file x => exact absurd he (h.cache i j c hc x)
    | directory => exact hk

theorem ready_of_confined (h : Independent jobs t₀) {i : Fin n} {u : FileTree}
    (hu : (jobs i).Confined t₀ u) : (jobs i).Ready u := by
  refine h.ready i hu.grown fun k => ?_
  rcases hu.change k with hk | ⟨e, he⟩
  · exact .inl hk
  · exact .inr ⟨i, e, he⟩

/-- **A job alone** keeps to its places. -/
theorem after_confined (h : Independent jobs t₀) (i : Fin n) (m : Nat) :
    (jobs i).Confined t₀ (after (jobs i) t₀ m).2 := by
  induction m with
  | zero => exact ⟨.refl t₀, fun _ => .inl rfl⟩
  | succ m ih =>
    have hready := h.ready_of_confined ih
    have hstep := (advance_echoes (h.tidy i) hready hready (.refl _ _)
      (after (jobs i) t₀ m).1).2
    rw [ih.grown.current] at hstep
    refine ⟨ih.grown.trans hstep.left, fun k => ?_⟩
    rcases hstep.change k with ⟨hk, -⟩ | ⟨e, he, hk, -⟩
    · rw [after, hk]
      exact ih.change k
    · exact .inr ⟨e, he, hk⟩

section Step

variable (hm : Merged t₀ alone t) (hc : ∀ i, (jobs i).Confined t₀ (alone i))

include hm hc

/-- A place has not changed for any job, or it has for one of them. -/
theorem merged_cases (k : Place) :
    (∀ i, (alone i).get? k = t₀.get? k) ∧ t.get? k = t₀.get? k ∨
      ∃ j e, (jobs j).Touches t₀.current k e ∧ (alone j).get? k = some e ∧ t.get? k = some e := by
  by_cases hk : ∀ i, (alone i).get? k = t₀.get? k
  · exact .inl ⟨hk, hm.kept k hk⟩
  · push Not at hk
    obtain ⟨j, hj⟩ := hk
    rcases (hc j).change k with hk | ⟨e, he, hk⟩
    · exact absurd hk hj
    · exact .inr ⟨j, e, he, hk, (hm.made j k hj).trans hk⟩

variable (h : Independent jobs t₀)

include h

theorem ready_of_merged (i : Fin n) : (jobs i).Ready t := by
  refine h.ready i hm.grown fun k => ?_
  rcases merged_cases hm hc k with ⟨-, hk⟩ | ⟨j, e, he, -, hk⟩
  · exact .inl hk
  · exact .inr ⟨j, e, he, hk⟩

/-- A job finds the same on the way to a place that it looks at. -/
theorem sameWay (i : Fin n) {p : Place} (hp : (jobs i).Visits t₀.current p) :
    SameWay (alone i) t p := by
  -- where the job alone does not find the same, another one has made a change
  have hcases (k : Place) : (alone i).get? k = t.get? k ∨ (alone i).get? k = t₀.get? k ∧
      ∃ j e, i ≠ j ∧ (jobs j).Touches t₀.current k e ∧ (alone j).get? k = some e ∧
        t.get? k = some e := by
    by_cases hi : (alone i).get? k = t₀.get? k
    · rcases merged_cases hm hc k with ⟨-, hk⟩ | ⟨j, e, he, hj, hk⟩
      · exact .inl (hi.trans hk.symm)
      by_cases hij : i = j
      · rw [hij, hj, hk]
        exact .inl rfl
      · exact .inr ⟨hi, j, e, hij, he, hj, hk⟩
    · exact .inl (hm.made i k hi).symm
  constructor
  · rcases hcases p with hk | ⟨-, j, e, hij, he, -⟩
    · exact hk
    · cases e with
      | file x => exact absurd List.prefix_rfl (h.file i j hij p hp p x he)
      | directory => exact absurd he (h.directory i j hij p hp)
  · intro k hk
    rcases hcases k with hk | ⟨h₀, j, e, hij, he, hj, ht⟩
    · rw [isFile, isFile, hk]
    cases e with
    | file x => exact absurd hk (h.file i j hij p hp k x he)
    | directory =>
      -- nothing was there before the directory
      rw [isFile_of_directory ht]
      by_contra hf
      have hf₀ : t₀.isFile k = true := by
        rw [isFile, ← h₀]
        exact eq_true_of_ne_false hf
      have hfj := (hc j).grown.isFile k hf₀
      rw [isFile_of_directory hj] at hfj
      cases hfj

theorem seesSame (i : Fin n) : (jobs i).SeesSame (alone i) t where
  current := hm.grown.current.trans (hc i).grown.current.symm
  input := by
    rw [(hc i).grown.current]
    exact sameWay hm hc h i (.inl rfl)
  output := by
    rw [(hc i).grown.current]
    exact sameWay hm hc h i (.inr (.inl rfl))
  entry c hcache := by
    rw [(hc i).grown.current]
    exact sameWay hm hc h i (.inr (.inr ⟨c, hcache, rfl⟩))

/-- A step of one job keeps the trees merged. -/
theorem merged_step (i : Fin n) {u t' : FileTree}
    (hu : Parallel ((jobs i).Touches t₀.current) (alone i) t u t') :
    Merged t₀ (Function.update alone i u) t' := by
  refine ⟨hm.grown.trans hu.right, fun k hk => ?_, fun j k hk => ?_⟩
  · have hi := hk i
    rw [Function.update_self] at hi
    rcases hu.change k with ⟨hu, ht⟩ | ⟨e, -, hu, ht⟩
    · rw [ht]
      refine hm.kept k fun j => ?_
      by_cases hij : j = i
      · rw [hij, ← hu, hi]
      · have hj := hk j
        rwa [Function.update_of_ne hij] at hj
    · rw [ht, ← hu, hi]
  · by_cases hij : j = i
    · subst hij
      rw [Function.update_self] at hk ⊢
      rcases hu.change k with ⟨hu, ht⟩ | ⟨e, -, hu, ht⟩
      · rw [hu] at hk ⊢
        rw [ht, hm.made j k hk]
      · rw [hu, ht]
    · rw [Function.update_of_ne hij] at hk ⊢
      rcases hu.change k with ⟨-, ht⟩ | ⟨e, he, -, ht⟩
      · rw [ht, hm.made j k hk]
      · rcases (hc j).change k with hj | ⟨e', he', hj⟩
        · exact absurd hj hk
        · rw [ht, hj, h.touches_eq (Ne.symm hij) he he']

end Step

/-- After each step of a schedule, each job is where it would be alone, and the tree is merged
from the trees that they would make alone. -/
theorem interleave_merged (h : Independent jobs t₀) (s : List (Fin n)) :
    (∀ i, (t₀.perform (interleave jobs s fun _ => .start)).1 i =
        (after (jobs i) t₀ (s.count i)).1) ∧
      Merged t₀ (fun i => (after (jobs i) t₀ (s.count i)).2)
        (t₀.perform (interleave jobs s fun _ => .start)).2 := by
  induction s using List.reverseRecOn with
  | nil => exact ⟨fun _ => rfl, .refl t₀, fun _ _ => rfl, fun _ _ hk => absurd rfl hk⟩
  | append_singleton s i ih =>
    obtain ⟨hstages, hm⟩ := ih
    have hc (j : Fin n) := h.after_confined j (s.count j)
    have hstep := advance_echoes (h.tidy i) (h.ready_of_confined (hc i))
      (ready_of_merged hm hc h i) (seesSame hm hc h i) (after (jobs i) t₀ (s.count i)).1
    rw [(hc i).grown.current] at hstep
    have hself : (s ++ [i]).count i = s.count i + 1 := by simp
    have hother {j : Fin n} (hij : j ≠ i) : (s ++ [i]).count j = s.count j := by
      simp [Ne.symm hij]
    have halone : (fun j => (after (jobs j) t₀ ((s ++ [i]).count j)).2) =
        Function.update (fun j => (after (jobs j) t₀ (s.count j)).2) i
          (after (jobs i) t₀ (s.count i + 1)).2 := by
      funext j
      by_cases hij : j = i
      · rw [hij, Function.update_self, hself]
      · rw [Function.update_of_ne hij, hother hij]
    rw [perform_interleave_concat, perform_advanceAt, halone, hstages i]
    refine ⟨fun j => ?_, merged_step hm hc h i hstep.2⟩
    by_cases hij : j = i
    · rw [hij, hself]
      exact (Function.update_self _ _ _).trans hstep.1.symm
    · rw [hother hij]
      exact (Function.update_of_ne hij _ _).trans (hstages j)

/-- **However jobs take turns**, when they have ended each has the result that it has alone. -/
theorem interleave_done (h : Independent jobs t₀) {s : List (Fin n)} (hs : ∀ i, 4 ≤ s.count i) :
    (∀ i, (t₀.perform (interleave jobs s fun _ => .start)).1 i =
        .done (t₀.perform (run (jobs i))).1) ∧
      Merged t₀ (fun i => (t₀.perform (run (jobs i))).2)
        (t₀.perform (interleave jobs s fun _ => .start)).2 := by
  obtain ⟨hstages, hm⟩ := h.interleave_merged s
  have halone : (fun i => (after (jobs i) t₀ (s.count i)).2) =
      fun i => (t₀.perform (run (jobs i))).2 := by
    funext i
    rw [after_run _ _ (hs i)]
  refine ⟨fun i => ?_, halone ▸ hm⟩
  rw [hstages i, after_run _ _ (hs i)]

end Independent

end Job

end StumpGen
