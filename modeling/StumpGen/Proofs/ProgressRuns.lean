import StumpGen.Build.Progress
import StumpGen.Build
import StumpGen.Proofs.FileEffects
import StumpGen.Proofs.ProjectPaths
import Mathlib.Data.List.Nodup

/-!
# What a progress display shows when a build is over

Units run side by side, so the events of a build come as an interleaving of what its units report
one after another (`Build.Interleaves`).  An event names the file of its unit and not the unit
itself.  A display finds the line of a file by its name, and if several lines have that name it
finds the last one.  So what a display shows can be told without going through the events one by
one: the last line of each file shows the latest report for the file, and the other lines show what
they showed at the start (`Progress.items_foldl_apply`).

Among the reports for a file the latest one is how some unit ended, whatever the interleaving is
(`Build.Interleaves.isOver`).  Hence the lines of a build that is over show final states,
**except those of units that share their file with a later unit**, which stay queued for ever
(`Build.final_states`).
-/

namespace StumpGen

open Build

/-! ### Interleavings -/

namespace Build

/-- Elements are taken from some sequences, always the first one that is left of one of them, until
all are empty. -/
inductive Interleaves {α : Type} : List (List α) → List α → Prop
  /-- Nothing is left. -/
  | done {ls : List (List α)} : (∀ l ∈ ls, l = []) → Interleaves ls []
  /-- One of the sequences gives its first element. -/
  | take {before after : List (List α)} {a : α} {l as : List α} :
      Interleaves (before ++ l :: after) as → Interleaves (before ++ (a :: l) :: after) (a :: as)

namespace Interleaves

variable {α : Type} {ls : List (List α)} {as : List α}

/-- An interleaving has the elements of its sequences. -/
theorem mem_iff (h : Interleaves ls as) (x : α) : x ∈ as ↔ ∃ l ∈ ls, x ∈ l := by
  induction h with
  | done hempty =>
    simp only [List.not_mem_nil, false_iff, not_exists, not_and]
    intro l hl
    simp [hempty l hl]
  | @take before after a l as _ ih =>
    rw [List.mem_cons, ih]
    simp only [List.mem_append, List.mem_cons]
    constructor
    · rintro (rfl | ⟨k, hk | rfl | hk, hx⟩)
      · exact ⟨x :: l, .inr (.inl rfl), List.mem_cons_self⟩
      · exact ⟨k, .inl hk, hx⟩
      · exact ⟨a :: k, .inr (.inl rfl), List.mem_cons_of_mem a hx⟩
      · exact ⟨k, .inr (.inr hk), hx⟩
    · rintro ⟨k, hk | rfl | hk, hx⟩
      · exact .inr ⟨k, .inl hk, hx⟩
      · rcases List.mem_cons.1 hx with rfl | hx
        · exact .inl rfl
        · exact .inr ⟨l, .inr (.inl rfl), hx⟩
      · exact .inr ⟨k, .inr (.inr hk), hx⟩

/-- One sequence after another is an interleaving. -/
theorem flatten (ls : List (List α)) : Interleaves ls ls.flatten := by
  -- the sequences that are used up stand in front
  have after (used ls : List (List α)) (hused : ∀ l ∈ used, l = []) :
      Interleaves (used ++ ls) ls.flatten := by
    induction ls generalizing used with
    | nil => exact .done (by simpa using hused)
    | cons l ls ih =>
      induction l with
      | nil =>
        have := ih (used ++ [[]]) (by simpa [or_imp, forall_and] using hused)
        simpa using this
      | cons a l ihl => exact .take ihl
  exact after [] ls (by simp)

end Interleaves

end Build

/-! ### What events tell -/

namespace Progress

/-- What an event tells of a file.  One without a file tells of none. -/
def told (f : Text) (e : Event) : Option (State × Stage) :=
  if e.file = f ∧ f ≠ [] then (State.ofEvent? e).map fun s => (s, e.stage) else none

/-- The latest that events tell of a file. -/
def latest (es : List Event) (f : Text) : Option (State × Stage) := es.reverse.findSome? (told f)

/-- The line of a file after some events. -/
def lineOf (es : List Event) (f : Text) : Item where
  file := f
  state := (latest es f).elim .queued Prod.fst
  stage := (latest es f).elim {} Prod.snd

/-- The lines of some files after some events: the last one of each file shows the latest that was
told, and the others show nothing new. -/
def linesOf (es : List Event) : List Text → List Item
  | [] => []
  | f :: fs => (if fs.contains f then { file := f } else lineOf es f) :: linesOf es fs

variable {es : List Event} {e : Event} {f : Text} {fs : List Text}

theorem told_of_ne (h : e.file ≠ f) : told f e = none := by simp [told, h]

theorem latest_append (es es' : List Event) (f : Text) :
    latest (es ++ es') f = (latest es' f).or (latest es f) := by
  rw [latest, List.reverse_append, List.findSome?_append]
  rfl

theorem latest_concat (es : List Event) (e : Event) (f : Text) :
    latest (es ++ [e]) f = (told f e).or (latest es f) := by
  rw [latest_append]
  simp [latest]

theorem latest_cons (e : Event) (es : List Event) (f : Text) :
    latest (e :: es) f = (latest es f).or (told f e) := by
  rw [← List.singleton_append, latest_append]
  simp [latest]

theorem lineOf_concat (h : told f e = none) : lineOf (es ++ [e]) f = lineOf es f := by
  rw [lineOf, lineOf, latest_concat, h, Option.none_or]

theorem linesOf_concat (h : ∀ f ∈ fs, told f e = none) :
    linesOf (es ++ [e]) fs = linesOf es fs := by
  induction fs with
  | nil => rfl
  | cons f fs ih =>
    obtain ⟨hf, hfs⟩ := List.forall_mem_cons.1 h
    rw [linesOf, linesOf, lineOf_concat hf, ih hfs]

theorem map_file_linesOf (es : List Event) (fs : List Text) :
    (linesOf es fs).map Item.file = fs := by
  induction fs with
  | nil => rfl
  | cons f fs ih =>
    rw [linesOf, List.map_cons, ih]
    split <;> rfl

theorem linesOf_nil (fs : List Text) : linesOf [] fs = fs.map fun f => { file := f } := by
  induction fs with
  | nil => rfl
  | cons f fs ih =>
    rw [linesOf, ih, List.map_cons]
    split <;> rfl

/-- An event that tells something of a file changes the last line of the file. -/
theorem modifyLast_linesOf {s : State} (hs : State.ofEvent? e = some s) (he : e.file ≠ [])
    (es : List Event) (fs : List Text) :
    modifyLast (·.file = e.file) (fun i => { i with state := s, stage := e.stage }) (linesOf es fs)
      = linesOf (es ++ [e]) fs := by
  induction fs with
  | nil => rfl
  | cons f fs ih =>
    have hany : (linesOf es fs).any (fun i => i.file = e.file) = fs.contains e.file := by
      rw [Bool.eq_iff_iff, List.contains_iff_mem, List.any_eq_true]
      conv_rhs => rw [← map_file_linesOf es fs]
      simp
    rw [linesOf, linesOf, modifyLast, hany]
    by_cases hf : e.file = f
    · subst hf
      cases hmem : fs.contains e.file with
      | true => simp [ih]
      | false =>
        -- this is the last line of the file
        have hothers : ∀ g ∈ fs, told g e = none := fun g hg => told_of_ne fun heg => by
          rw [heg, List.contains_iff_mem.2 hg] at hmem
          cases hmem
        simp [lineOf, latest_concat, told, he, hs, linesOf_concat hothers]
    · have hfile :
          (if fs.contains f then ({ file := f } : Item) else lineOf es f).file ≠ e.file := by
        split <;> exact Ne.symm hf
      rw [decide_eq_false hfile, lineOf_concat (told_of_ne hf), ih]
      rfl

/-- One event more. -/
theorem items_apply {p : Progress} (hp : p.items = linesOf es fs) (e : Event) :
    (p.apply e).items = linesOf (es ++ [e]) fs := by
  rw [apply]
  cases hs : State.ofEvent? e with
  | none => exact hp.trans (linesOf_concat fun f _ => by simp [told, hs]).symm
  | some s =>
    by_cases he : e.file = []
    · simp only [if_pos he]
      refine hp.trans (linesOf_concat fun f _ => ?_).symm
      by_cases hf : e.file = f
      · simp [told, ← hf, he]
      · exact told_of_ne hf
    · simp only [if_neg he, hp, modifyLast_linesOf hs he]

/-- **What a display shows after some events.** -/
theorem items_foldl_apply (title : Text) (fs : List Text) (es : List Event) :
    (es.foldl apply (start title fs)).items = linesOf es fs := by
  induction es using List.reverseRecOn with
  | nil => exact (linesOf_nil fs).symm
  | append_singleton es e ih => rw [List.foldl_append, List.foldl_cons, List.foldl_nil,
      items_apply ih]

theorem items_final (title : Text) (fs : List Text) (es : List Event) :
    (final title fs es).items = (es.foldl apply (start title fs)).items := rfl

/-- The lines after a line tell whether it is the last one of its file. -/
theorem eq_of_linesOf {before after : List Item} {line : Item}
    (h : linesOf es fs = before ++ line :: after) :
    line = if (after.map Item.file).contains line.file then { file := line.file }
      else lineOf es line.file := by
  induction before generalizing fs with
  | nil =>
    cases fs with
    | nil => cases h
    | cons f fs =>
      obtain ⟨hline, rfl⟩ := List.cons.inj h
      have hfile : line.file = f := by
        rw [← hline]
        split <;> rfl
      rw [map_file_linesOf, hfile, hline]
  | cons i before ih =>
    cases fs with
    | nil => cases h
    | cons f fs => exact ih (List.cons.inj h).2

/-- Whether the latest that is told of a file is how something ended. -/
def IsOver (es : List Event) (f : Text) : Prop :=
  ∃ s stage, latest es f = some (s, stage) ∧ s.isFinal = true

theorem IsOver.isFinal (h : IsOver es f) : (lineOf es f).state.isFinal = true := by
  obtain ⟨s, stage, hl, hs⟩ := h
  simp [lineOf, hl, hs]

/-- If all files are over, the lines that are not are those that are not the last of their file. -/
theorem linesOf_isFinal_iff (h : ∀ f ∈ fs, IsOver es f) :
    (∀ line ∈ linesOf es fs, line.state.isFinal = true) ↔ fs.Nodup := by
  induction fs with
  | nil => simp [linesOf]
  | cons f fs ih =>
    obtain ⟨hf, hfs⟩ := List.forall_mem_cons.1 h
    rw [linesOf, List.forall_mem_cons, ih hfs, List.nodup_cons]
    refine and_congr_left fun _ => ?_
    by_cases hmem : f ∈ fs
    · simp [hmem, State.isFinal]
    · simp [hmem, hf.isFinal]

/-! ### How units end -/

/-- Reports about one file, the last of which tells how something ended. -/
structure Closes (f : Text) (es : List Event) : Prop where
  file : ∀ e ∈ es, e.file = f
  last : ∀ e, es.getLast? = some e → ∃ s, State.ofEvent? e = some s ∧ s.isFinal = true

theorem Closes.tail (h : Closes f (e :: es)) : Closes f es where
  file := fun a ha => h.file a (List.mem_cons_of_mem e ha)
  last := fun a ha => h.last a (by rw [List.getLast?_cons, ha]; rfl)

/-- What a unit reports: the stages that it enters, and how it ended. -/
theorem unitEvents_eq (f : Text) (r : Job.Result) : ∃ ending : Event,
    unitEvents f r = r.runs.map (fun run => { file := f, stage := ⟨run.name⟩, status := .working })
      ++ [ending] ∧ ending.file = f ∧
    (ending.status = .error ∨ ending.status = .cached ∨ ending.status = .done) := by
  cases hfault : r.fault with
  | some fault => exact ⟨_, rfl, by simp [hfault], by simp [hfault]⟩
  | none => exact ⟨_, rfl, by simp [hfault], by cases hc : r.cached <;> simp [hfault]⟩

theorem closes_unitEvents (f : Text) (r : Job.Result) : Closes f (unitEvents f r) := by
  have hstate (e : Event) (he : e.status = .error ∨ e.status = .cached ∨ e.status = .done) :
      ∃ s, State.ofEvent? e = some s ∧ s.isFinal = true := by
    rw [State.ofEvent?]
    rcases he with he | he | he
    · exact ⟨.error, by rw [he]; rfl, rfl⟩
    · exact ⟨.cached, by rw [he]; rfl, rfl⟩
    · exact ⟨.done, by rw [he]; rfl, rfl⟩
  obtain ⟨ending, hevents, hfile, hstatus⟩ := unitEvents_eq f r
  rw [hevents]
  constructor
  · intro e he
    rcases List.mem_append.1 he with he | he
    · obtain ⟨run, -, rfl⟩ := List.mem_map.1 he
      rfl
    · rw [List.mem_singleton.1 he, hfile]
  · intro e he
    rw [List.getLast?_concat] at he
    exact Option.some.inj he ▸ hstate ending hstatus

end Progress

open Progress

/-- **The latest report for a file** is how a unit ended, in whatever order the reports come. -/
theorem Build.Interleaves.isOver {ls : List (List Event)} {es : List Event}
    (h : Interleaves ls es) (hls : ∀ l ∈ ls, ∃ f, Closes f l) {f : Text} (hf : f ≠ [])
    (hmem : ∃ e ∈ es, e.file = f) : IsOver es f := by
  induction h with
  | done _ => simp at hmem
  | @take before after e l es h ih =>
    obtain ⟨g, hg⟩ := hls (e :: l) (by simp)
    have hrest : ∀ k ∈ before ++ l :: after, ∃ f, Closes f k := by
      intro k hk
      rcases List.mem_append.1 hk with hk | hk
      · exact hls k (by simp [hk])
      · rcases List.mem_cons.1 hk with rfl | hk
        · exact ⟨g, hg.tail⟩
        · exact hls k (by simp [hk])
    by_cases hlater : ∃ a ∈ es, a.file = f
    · obtain ⟨s, stage, hs, hfinal⟩ := ih hrest hlater
      exact ⟨s, stage, by rw [latest_cons, hs, Option.some_or], hfinal⟩
    · -- the event is the last one about the file, so its unit has nothing left to report
      have hef : e.file = f := by
        obtain ⟨a, ha, haf⟩ := hmem
        rcases List.mem_cons.1 ha with rfl | ha
        · exact haf
        · exact absurd ⟨a, ha, haf⟩ hlater
      have hl : l = [] := by
        rw [List.eq_nil_iff_forall_not_mem]
        intro a ha
        have haf : a.file = f := by
          rw [hg.file a (List.mem_cons_of_mem e ha), ← hg.file e List.mem_cons_self, hef]
        exact hlater ⟨a, (h.mem_iff a).2 ⟨l, by simp, ha⟩, haf⟩
      obtain ⟨s, hs, hfinal⟩ := hg.last e (by rw [hl]; rfl)
      have hnone : latest es f = none := by
        rw [latest, List.findSome?_eq_none_iff]
        exact fun a ha => told_of_ne fun haf => hlater ⟨a, List.mem_reverse.1 ha, haf⟩
      refine ⟨s, e.stage, ?_, hfinal⟩
      rw [latest_cons, hnone, Option.none_or, told, if_pos ⟨hef, hf⟩, hs]
      rfl

/-! ### Builds -/

namespace Build

/-- The names under which the units of a project are shown. -/
def unitNames (p : Manifest) : List Text := p.units.map fun u => p.relative u.input

/-- What the units of a project report while they run, if their jobs have these results. -/
def unitReports (p : Manifest) (results : List Job.Result) : List (List Event) :=
  List.zipWith (fun u res => unitEvents (p.relative u.input) res) p.units results

/-- The lines of a project's display once its units wait and have reported some events. -/
def displayed (p : Manifest) (title : Text) (es : List Event) : List Item :=
  ((p.units.map (queuedEvent p) ++ es).foldl apply (start title (unitNames p))).items

variable {p : Manifest} {results : List Job.Result}

theorem closes_unitReports : ∀ l ∈ unitReports p results, ∃ f, Closes f l := by
  intro l hl
  rw [unitReports, ← List.map_uncurry_zip_eq_zipWith] at hl
  obtain ⟨⟨u, res⟩, -, rfl⟩ := List.mem_map.1 hl
  exact ⟨_, closes_unitEvents _ res⟩

/-- Every unit reports something. -/
theorem exists_report (hresults : results.length = p.units.length) {f : Text}
    (hf : f ∈ unitNames p) : ∃ l ∈ unitReports p results, ∃ e ∈ l, e.file = f := by
  obtain ⟨u, hu, rfl⟩ := List.mem_map.1 hf
  have hzip : (p.units.zip results).map Prod.fst = p.units := List.map_fst_zip hresults.ge
  rw [← hzip] at hu
  obtain ⟨⟨u, res⟩, hmem, rfl⟩ := List.mem_map.1 hu
  obtain ⟨ending, hevents, hfile, -⟩ := unitEvents_eq (p.relative u.input) res
  refine ⟨unitEvents (p.relative u.input) res, ?_, ending, by simp [hevents], hfile⟩
  rw [unitReports, ← List.map_uncurry_zip_eq_zipWith]
  exact List.mem_map.2 ⟨(u, res), hmem, rfl⟩

/-- **What a display shows when a build is over**, in whatever order its units report.  A line is
final exactly if no later unit has the same name; any other line still shows that its unit waits.
So all lines are final exactly if the units have names of their own, which are names of inputs: if
the project has an absolute path, no two units may share an input. -/
theorem final_states {path text : Text} (hload : Manifest.ofText path text = .ok p)
    (hresults : results.length = p.units.length) {es : List Event}
    (h : Interleaves (unitReports p results) es) (title : Text) :
    (∀ before line after, displayed p title es = before ++ line :: after →
      (line.state.isFinal = true ↔ line.file ∉ after.map Item.file) ∧
      (line.file ∈ after.map Item.file → line.state = .queued)) ∧
    ((∀ line ∈ displayed p title es, line.state.isFinal = true) ↔ (unitNames p).Nodup) ∧
    (Path.isAbsolute path = true →
      ((unitNames p).Nodup ↔ (p.units.map Manifest.Source.input).Nodup)) := by
  have hover : ∀ f ∈ unitNames p, IsOver (p.units.map (queuedEvent p) ++ es) f := by
    intro f hf
    have hne : f ≠ [] := by
      obtain ⟨u, hu, rfl⟩ := List.mem_map.1 hf
      exact Manifest.relative_ne_nil hload u hu
    obtain ⟨l, hl, e, he, hfile⟩ := exists_report hresults hf
    obtain ⟨s, stage, hs, hfinal⟩ :=
      h.isOver closes_unitReports hne ⟨e, (h.mem_iff e).2 ⟨l, hl, he⟩, hfile⟩
    exact ⟨s, stage, by rw [latest_append, hs, Option.some_or], hfinal⟩
  rw [displayed, items_foldl_apply]
  refine ⟨fun before line after heq => ?_, linesOf_isFinal_iff hover, fun habsolute => ?_⟩
  · have hline := eq_of_linesOf heq
    have hmem : line.file ∈ unitNames p := by
      rw [← map_file_linesOf (p.units.map (queuedEvent p) ++ es) (unitNames p), heq]
      simp
    by_cases hlater : line.file ∈ after.map Item.file
    · rw [if_pos (List.contains_iff_mem.2 hlater)] at hline
      have hstate : line.state = .queued := by rw [hline]
      simp [hstate, hlater, State.isFinal]
    · rw [if_neg (by simpa using hlater)] at hline
      have hstate : line.state.isFinal = true := by
        rw [hline]
        exact (hover _ hmem).isFinal
      simp [hstate, hlater]
  · have hnames : unitNames p = (p.units.map Manifest.Source.input).map p.relative := by
      rw [unitNames, List.map_map]
      rfl
    rw [hnames]
    refine ⟨List.Nodup.of_map _, List.Nodup.map_on fun x hx y hy hxy => ?_⟩
    obtain ⟨u, hu, rfl⟩ := List.mem_map.1 hx
    obtain ⟨v, hv, rfl⟩ := List.mem_map.1 hy
    exact Manifest.relative_injOn hload habsolute hu hv hxy

/-- The events of a build that is not called off: first all units wait, then they report one after
another. -/
theorem run_events {r : Request} {t t' : FileTree} {cache : Option Cache}
    (hopen : t.perform (openCache r) = (.ok cache, t')) :
    ∃ results es, results.length = r.project.units.length ∧
      Interleaves (unitReports r.project results) es ∧
      (t.perform (run r false)).1.events = r.project.units.map (queuedEvent r.project) ++ es := by
  have hunits (us : List Manifest.Source) (t : FileTree) (b : Result) :
      ∃ results : List Job.Result, results.length = us.length ∧
        (t.perform (runUnits r cache us b)).1.events = b.events ++
          (List.zipWith (fun u res => unitEvents (r.project.relative u.input) res) us
            results).flatten := by
    induction us generalizing t b with
    | nil => exact ⟨[], rfl, (List.append_nil _).symm⟩
    | cons u us ih =>
      rw [runUnits, FileTree.perform_bind]
      generalize t.perform (Job.run (r.job cache u)) = ended
      obtain ⟨res, t'⟩ := ended
      obtain ⟨results, hlength, hevents⟩ := ih t' {
        events := b.events ++ unitEvents (r.project.relative u.input) res
        units := b.units ++ [{ unit := u, result := some res }]
        timings := b.timings.addRuns res.runs
        error := b.error }
      refine ⟨res :: results, congrArg (· + 1) hlength, hevents.trans ?_⟩
      rw [List.append_assoc, List.zipWith_cons_cons, List.flatten_cons]
  obtain ⟨results, hlength, hevents⟩ := hunits r.project.units t'
    { events := r.project.units.map (queuedEvent r.project) }
  refine ⟨results, _, hlength, .flatten _, ?_⟩
  rw [run, FileTree.perform_bind, hopen]
  exact hevents

/-! ### A line that waits for ever

Two units make listings from one program, with different entries. -/

/-- The manifest of a project whose units share their input. -/
def sharedText : Text :=
  "[[unit]]\ninput = \"a.toml\"\noutput = \"a.s\"\n" ++
    "[[unit]]\ninput = \"a.toml\"\noutput = \"b.s\"\nentry = \"start\"\n"

/-- A build of the project without a cache. -/
def shared : Request where
  project := {
    path := "/w/fstump.toml"
    root := "/w"
    target := {}
    units := [{ input := "/w/a.toml", output := "/w/a.s" },
      { input := "/w/a.toml", output := "/w/b.s", entry := "start" }] }
  force := true

/-- When the project is built one of the lines is not final. -/
theorem final_states_shared : Manifest.ofText "/w/fstump.toml" sharedText = .ok shared.project ∧
    ¬ ∀ line ∈ (final "fstump build" (unitNames shared.project)
      (FileTree.perform {} (run shared false)).1.events).items, line.state.isFinal = true := by
  have hload : Manifest.ofText "/w/fstump.toml" sharedText = .ok shared.project := by decide +kernel
  have hopen : FileTree.perform {} (openCache shared) = (.ok none, {}) := rfl
  have hshared : ¬ (shared.project.units.map Manifest.Source.input).Nodup := by decide
  obtain ⟨results, es, hlength, hreports, hevents⟩ := run_events hopen
  obtain ⟨-, hfinal, hinputs⟩ := final_states hload hlength hreports "fstump build"
  refine ⟨hload, fun hall => hshared ((hinputs rfl).1 (hfinal.1 ?_))⟩
  rw [hevents, items_final] at hall
  exact hall

end Build

end StumpGen
