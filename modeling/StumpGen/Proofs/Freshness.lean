import StumpGen.Proofs.FileEffects
import StumpGen.Proofs.Fingerprint

/-!
# What the cache may be trusted with

A run of a builder is a sequence of jobs, and between them the inputs are edited while outputs
and entries are left alone.  This module follows such a run, whatever its jobs are (`History`),
and says what is true when a job then finds its output up to date.

The entry that it has found was stored by an earlier job for the same output, the same input and
options that read the same.  So the size that it tells is that of the image (`Job.stats_cached`).
But the entry says nothing of what was written to the output since then.  A job that is stopped
by a fault writes the part of the listing that it has and stores no entry; so does a job without
a cache, or with another one.  So the output need not hold the listing, and
`run_cached_history` gives the exact condition: **what was written last to the place of the
output is that listing**.

* `History` : jobs and edits one after another.
* `History.effect` : what the files that only jobs write hold after a run.
* `run_cached_history` : what is true when a job finds its output up to date.
-/

namespace StumpGen

open FileTree Job MessagePack

namespace Job

variable {r s : Request} {t t' : FileTree} {contents : Text} {p q : Program}

theorem decode_of_loaded (h : loaded r t = .ok (contents, p)) :
    ∃ f d, Document.decode f contents = .ok d ∧ Document.program d = .ok p := by
  rw [loaded, loadInput] at h
  cases hf : Document.Format.ofPath r.input with
  | error e =>
    simp only [hf] at h
    cases h
  | ok f =>
    simp only [hf, perform_bind, perform_read] at h
    cases hr : t.read r.input with
    | error e =>
      simp only [hr] at h
      cases h
    | ok x =>
      simp only [hr, Document.ofFile] at h
      cases hd : Document.decode f x with
      | error e =>
        simp only [hd] at h
        cases h
      | ok d =>
        cases hp : Document.program d with
        | error e =>
          simp only [hd, Document.programOf, hp, perform_pure, bind, Except.bind] at h
          cases h
        | ok q =>
          simp only [hd, Document.programOf, hp, perform_pure, bind, Except.bind] at h
          cases h
          exact ⟨f, d, hd, hp⟩

/-- **An input holds one program**, whatever the name of its file says about its format. -/
theorem program_unique (h : loaded r t = .ok (contents, p)) (h' : loaded s t' = .ok (contents, q)) :
    p = q := by
  obtain ⟨f, d, hd, hp⟩ := decode_of_loaded h
  obtain ⟨g, e, he, hq⟩ := decode_of_loaded h'
  rw [Document.decode_unique hd he] at hp
  exact Except.ok.inj (hp.symm.trans hq)

theorem fresh?_eq_some {e : Cache.Entry} (h : fresh? r t contents = some e) :
    ∃ c, r.cache = some c ∧
      (∃ x, t.read (c.entryPath r.output) = .ok x ∧ Cache.Entry.decode x = some e) ∧
      e.output = r.output ∧ e.fingerprint = r.fingerprint contents ∧
      t.place r.output = .ok (target t.current r.output) := by
  rw [fresh?] at h
  cases hc : r.cache with
  | none => simp [hc] at h
  | some c =>
    obtain ⟨found, hf, hfound⟩ := c.perform_fresh t r.output (r.fingerprint contents)
    simp only [hc, hf] at h
    obtain ⟨hx, ho, hfp, kind, hk⟩ := hfound e h
    exact ⟨c, rfl, hx, ho, hfp, place_of_kind hk⟩

/-- The numbers of a job have 64 bits, and the path of its output is not longer than an entry
can tell. -/
structure Fits (r : Request) (t : FileTree) : Prop where
  output : r.output.length < 0x100000000
  capacity : r.options.capacity < 0x8000000000000000
  words : ∀ contents p, loaded r t = .ok (contents, p) →
    (compile p r.options).listing.words < 0x8000000000000000

theorem Fits.entry (h : Fits r t) (hl : loaded r t = .ok (contents, p)) :
    (entry r contents (compile p r.options)).Fits where
  schema := show 1 < 0x10000 by decide
  output := h.output
  fingerprint := Digest.length_bytes_ofText _
  words := by
    have hw := h.words contents p hl
    exact ⟨Int.le_trans (by decide) (Int.natCast_nonneg _), Int.ofNat_lt.2 hw⟩
  capacity := by
    obtain ⟨es, f, he⟩ := compile_eq p
    have hc : (compile p r.options).stats.capacity
        = if r.options.capacity ≤ 0 then Stats.defaultCapacity else r.options.capacity :=
      (he r.options).2.1
    show IsWord (compile p r.options).stats.capacity
    rw [hc]
    split_ifs with h0
    · exact ⟨by decide, by decide⟩
    · exact ⟨by omega, h.capacity⟩

end Job

/-! ### Runs -/

/-- The places of files that only jobs write: outputs, and entries of caches. -/
def Reserved (jobs : List Request) (current : Place) (k : Place) : Prop :=
  ∃ r ∈ jobs, k = target current r.output ∨
    ∃ c, r.cache = some c ∧ k = target current (c.entryPath r.output)

/-- Some of the jobs are run one after another, and in between all files but the reserved ones
are edited.  The jobs are listed with the trees that they have found, the latest first. -/
inductive History (jobs : List Request) (t₀ : FileTree) :
    List (Request × FileTree) → FileTree → Prop
  /-- Nothing has happened yet. -/
  | start : History jobs t₀ [] t₀
  /-- Files are edited. -/
  | edit {log : List (Request × FileTree)} {t t' : FileTree} : History jobs t₀ log t →
      t'.current = t.current → (∀ k, Reserved jobs t.current k → t'.get? k = t.get? k) →
      History jobs t₀ log t'
  /-- A job is run. -/
  | job {log : List (Request × FileTree)} {t : FileTree} {r : Request} : History jobs t₀ log t →
      r ∈ jobs → History jobs t₀ ((r, t) :: log) (t.perform (run r)).2

/-- The files that jobs have written, the latest first. -/
def written (log : List (Request × FileTree)) : List (Place × Text) :=
  log.flatMap fun j => writes j.1 j.2

/-- The texts whose digests were taken of inputs and options. -/
def hashed (log : List (Request × FileTree)) : List Text :=
  log.flatMap fun j =>
    match loaded j.1 j.2 with
    | .ok (contents, _) => j.1.hashed contents
    | .error _ => []

theorem hashed_cons {log : List (Request × FileTree)} {r : Request} {t : FileTree}
    {contents : Text} {p : Program} (hl : loaded r t = .ok (contents, p)) :
    hashed ((r, t) :: log) = r.hashed contents ++ hashed log := by
  simp only [hashed, List.flatMap_cons, hl]

theorem mem_hashed {log : List (Request × FileTree)} {r : Request} {t : FileTree}
    {contents : Text} {p : Program} (hm : (r, t) ∈ log) (hl : loaded r t = .ok (contents, p)) :
    ∀ x ∈ r.hashed contents, x ∈ hashed log := by
  intro x hx
  refine List.mem_flatMap.2 ⟨(r, t), hm, ?_⟩
  simpa only [hl] using hx

/-- No cache of the jobs holds an entry for their outputs. -/
def NoEntries (jobs : List Request) (t₀ : FileTree) : Prop :=
  ∀ r ∈ jobs, ∀ c, r.cache = some c →
    ∀ x, t₀.get? (target t₀.current (c.entryPath r.output)) ≠ some (.file x)

theorem mem_of_lookup {k : Place} {x : Text} {ws : List (Place × Text)}
    (h : ws.lookup k = some x) : (k, x) ∈ ws := by
  obtain ⟨l₁, l₂, rfl, -⟩ := List.lookup_eq_some_iff.1 h
  simp

namespace History

variable {jobs : List Request} {t₀ t : FileTree} {log : List (Request × FileTree)}

/-- **The reserved files** hold what jobs have written there last. -/
theorem effect (h : History jobs t₀ log t) :
    Effect (Reserved jobs t₀.current) t₀ (written log) t := by
  induction h with
  | start => exact .refl _ t₀
  | @edit log t t' _ hc hk ih =>
    have he : Effect (Reserved jobs t₀.current) t [] t' :=
      ⟨hc, fun _ _ _ h => (nomatch h), fun k hr _ => .inl (hk k (by rwa [ih.current]))⟩
    exact ih.trans he
  | @job log t r _ _ ih => exact ih.trans (run_effect _ r t)

theorem current_of_mem (h : History jobs t₀ log t) {s : Request} {ts : FileTree}
    (hs : (s, ts) ∈ log) : ts.current = t₀.current := by
  induction h with
  | start => cases hs
  | edit _ _ _ ih => exact ih hs
  | job h _ ih =>
    rcases List.mem_cons.1 hs with he | hs
    · cases he
      exact h.effect.current
    · exact ih hs

/-- **An entry that can be read** was stored by one of the jobs, which had written its listing
before. -/
theorem entry_stored (h : History jobs t₀ log t) (fits : ∀ j ∈ log, Fits j.1 j.2)
    (start : NoEntries jobs t₀) {r : Request} (hr : r ∈ jobs) {c : Cache} (hc : r.cache = some c)
    {x : Text} (hx : t.read (c.entryPath r.output) = .ok x) {e : Cache.Entry}
    (he : Cache.Entry.decode x = some e) :
    ∃ s ts contents p, (s, ts) ∈ log ∧ loaded s ts = .ok (contents, p) ∧
      e = entry s contents (compile p s.options) ∧ (compile p s.options).fault = none ∧
      (s.output ≠ [] →
        (target t.current s.output, (compile p s.options).text) ∈ writes s ts) := by
  obtain ⟨k, hk, hfile⟩ := read_eq_ok.1 hx
  have hcur := h.effect.current
  obtain rfl := place_eq hk
  rw [hcur] at hfile
  have hres : Reserved jobs t₀.current (target t₀.current (c.entryPath r.output)) :=
    ⟨r, hr, .inr ⟨c, hc, rfl⟩⟩
  cases hw : (written log).lookup (target t₀.current (c.entryPath r.output)) with
  | none =>
    rcases h.effect.kept _ hres hw with hkept | ⟨-, hdir⟩
    · exact absurd (hkept.symm.trans hfile) (start r hr c hc x)
    · cases hdir.symm.trans hfile
  | some y =>
    obtain rfl : y = x := by
      have := (h.effect.written _ y hres hw).symm.trans hfile
      cases this
      rfl
    obtain ⟨⟨s, ts⟩, hs, hmem⟩ : ∃ j ∈ log, (_, y) ∈ writes j.1 j.2 :=
      List.mem_flatMap.1 (mem_of_lookup hw)
    obtain ⟨contents, p, hl, htext | ⟨hentry, hfault, hlisted⟩⟩ := mem_writes hmem
    · obtain ⟨u, hu⟩ := text_compile p s.options
      rw [htext, hu, Cache.Entry.decode_ascii (by decide)] at he
      cases he
    · rw [hentry, Cache.Entry.decode_encode ((fits _ hs).entry hl)] at he
      rw [h.current_of_mem hs, ← hcur] at hlisted
      exact ⟨s, ts, contents, p, hs, hl, (Option.some.inj he).symm, hfault, hlisted⟩

/-- Once a job has written to an output, the output holds what was written there last. -/
theorem read_output (h : History jobs t₀ log t) {r s : Request} (hr : r ∈ jobs) {ts : FileTree}
    (hs : (s, ts) ∈ log) {x : Text} (hx : (target t.current r.output, x) ∈ writes s ts)
    (hp : t.place r.output = .ok (target t.current r.output)) (y : Text) :
    t.read r.output = .ok y ↔
      (written log).lookup (target t.current r.output) = some y := by
  have hmem : (target t.current r.output, x) ∈ written log :=
    List.mem_flatMap.2 ⟨(s, ts), hs, hx⟩
  have hres : Reserved jobs t₀.current (target t.current r.output) :=
    ⟨r, hr, .inl (by rw [h.effect.current])⟩
  cases hw : (written log).lookup (target t.current r.output) with
  | none =>
    have := List.lookup_eq_none_iff.1 hw _ hmem
    simp at this
  | some z =>
    have hread : t.read r.output = .ok z :=
      read_eq_ok.2 ⟨_, hp, h.effect.written _ z hres hw⟩
    rw [hread]
    exact ⟨fun hz => congrArg some (Except.ok.inj hz),
      fun hz => congrArg Except.ok (Option.some.inj hz)⟩

end History

/-- **What is true when a job finds its output up to date.**  The size that it tells is that of
the image.  The output holds the listing exactly if that is what was written there last.  A job
that was run before, with the same input and options that read the same, did write its listing
there. -/
theorem run_cached_history {jobs : List Request} {t₀ t : FileTree}
    {log : List (Request × FileTree)} (h : History jobs t₀ log t) (start : NoEntries jobs t₀)
    (fits : ∀ j ∈ log, Fits j.1 j.2) {r : Request} (hr : r ∈ jobs)
    (collisions : Set.InjOn Digest.ofText {x | x ∈ hashed ((r, t) :: log)})
    (hit : (t.perform (run r)).1.cached = true) :
    ∃ contents p, loaded r t = .ok (contents, p) ∧ (compile p r.options).fault = none ∧
      (t.perform (run r)).1.fault = none ∧
      (t.perform (run r)).1.stats = (compile p r.options).stats ∧
      (t.perform (run r)).2 = t ∧
      (t.read r.output = .ok (compile p r.options).text ↔
        (written log).lookup (target t.current r.output) = some (compile p r.options).text) ∧
      ∃ s ts, (s, ts) ∈ log ∧ loaded s ts = .ok (contents, p) ∧ s.output = r.output ∧
        s.optionsKey = r.optionsKey ∧
        (target t.current r.output, (compile p s.options).text) ∈ writes s ts := by
  obtain ⟨contents, p, e, hl, he, hstats, hfault, htree⟩ := run_cached hit
  obtain ⟨c, hc, ⟨x, hx, hd⟩, hout, hfp, hplace⟩ := fresh?_eq_some he
  obtain ⟨s, ts, contents', p', hs, hsl, rfl, hsf, hlisted⟩ :=
    h.entry_stored fits start hr hc hx hd
  obtain ⟨rfl, hkey⟩ := Request.fingerprint_injOn collisions
    (mem_hashed (List.mem_cons_of_mem _ hs) hsl) (mem_hashed (List.mem_cons_self ..) hl) hfp
  obtain rfl := program_unique hl hsl
  have houtput : s.output = r.output := hout
  rw [houtput] at hlisted
  have hmem := hlisted (ne_nil_of_place hplace)
  refine ⟨contents', p, hl, ?_, hfault, ?_, htree, h.read_output hr hs hmem hplace _, s, ts, hs,
    hsl, houtput, hkey, hmem⟩
  · rw [compile_fault_eq p r.options s.options, hsf]
  · rw [hstats, compile_stats_eq p (Request.capacity_of_optionsKey hkey.symm)]
    rfl

/-! ### An output that does not hold its listing

A job stores an entry, another one writes to the same output without a cache, and the first job
is run again. -/

/-- A tree with an empty program and a directory for a cache. -/
def bareTree : FileTree := { entries := [(["c"], .directory), (["a.mp"], .file [0x80])] }

/-- A job with a cache. -/
def keptJob : Request := { input := "a.mp", output := "o", cache := some ⟨"c"⟩ }

/-- A job that writes to the same output, with another origin and without the cache. -/
def movedJob : Request := { input := "a.mp", output := "o", options := { org := "1" } }

/-- The tree after the job with the cache. -/
def keptTree : FileTree := (bareTree.perform (run keptJob)).2

/-- The tree after both jobs. -/
def movedTree : FileTree := (keptTree.perform (run movedJob)).2

/-- Both jobs with the trees that they have found. -/
def movedLog : List (Request × FileTree) := [(movedJob, keptTree), (keptJob, bareTree)]

theorem movedTree_values :
    (movedTree.perform (run keptJob)).1.cached = true ∧
      loaded keptJob bareTree = .ok ([0x80], []) ∧ loaded movedJob keptTree = .ok ([0x80], []) ∧
      loaded keptJob movedTree = .ok ([0x80], []) ∧
      movedTree.read keptJob.output = .ok (compile [] movedJob.options).text ∧
      bareTree.get? (target bareTree.current (Cache.entryPath ⟨"c"⟩ keptJob.output)) = none := by
  decide +kernel

theorem moved_noEntries : NoEntries [keptJob, movedJob] bareTree := by
  intro r hr c hc x
  obtain rfl | rfl : r = keptJob ∨ r = movedJob := by simpa using hr
  · cases hc
    rw [movedTree_values.2.2.2.2.2]
    exact nofun
  · cases hc

theorem moved_fits : ∀ j ∈ movedLog, Fits j.1 j.2 := by
  obtain ⟨-, hkept, hmoved, -⟩ := movedTree_values
  have fits {r : Request} {t : FileTree} (ho : r.output.length < 0x100000000)
      (hc : r.options.capacity < 0x8000000000000000) (hl : loaded r t = .ok ([0x80], []))
      (hw : (compile [] r.options).listing.words = 8) : Fits r t := by
    refine ⟨ho, hc, fun contents p hp => ?_⟩
    cases hl.symm.trans hp
    omega
  have h₁ : Fits keptJob bareTree := fits (by decide) (by decide) hkept rfl
  have h₂ : Fits movedJob keptTree := fits (by decide) (by decide) hmoved rfl
  simpa [movedLog] using ⟨h₂, h₁⟩

theorem moved_collisions :
    Set.InjOn Digest.ofText {x | x ∈ hashed ((keptJob, movedTree) :: movedLog)} := by
  obtain ⟨-, hkept, hmoved, hagain, -⟩ := movedTree_values
  have hdistinct : ((keptJob.hashed [0x80] ++ (movedJob.hashed [0x80]).tail).map
      Digest.ofText).Nodup := by decide +kernel
  have hsub : ∀ x ∈ hashed ((keptJob, movedTree) :: movedLog),
      x ∈ keptJob.hashed [0x80] ++ (movedJob.hashed [0x80]).tail := by
    rw [movedLog, hashed_cons hagain, hashed_cons hmoved, hashed_cons hkept]
    simp [Request.hashed, hashed]
  intro x hx y hy he
  exact List.inj_on_of_nodup_map hdistinct (hsub x hx) (hsub y hy) he

/-- A job that finds its output up to date though it holds another listing. -/
theorem run_cached_history_moved :
    (movedTree.perform (run keptJob)).1.cached = true ∧
      (movedTree.perform (run keptJob)).1.stats = (compile [] keptJob.options).stats ∧
      (movedTree.perform (run keptJob)).2 = movedTree ∧
      movedTree.read keptJob.output ≠ .ok (compile [] keptJob.options).text ∧
      (written movedLog).lookup (target movedTree.current keptJob.output)
        ≠ some (compile [] keptJob.options).text := by
  obtain ⟨hit, -, -, hagain, hread, -⟩ := movedTree_values
  have run : History [keptJob, movedJob] bareTree movedLog movedTree := by
    rw [movedLog, movedTree, keptTree]
    exact .job (.job .start (by simp)) (by simp)
  obtain ⟨contents, p, hl, -, -, hstats, htree, hiff, -⟩ := run_cached_history run
    moved_noEntries moved_fits (r := keptJob) (by simp) moved_collisions hit
  cases hagain.symm.trans hl
  have hne : movedTree.read keptJob.output ≠ .ok (compile [] keptJob.options).text := by
    rw [hread]
    decide
  exact ⟨hit, hstats, htree, hne, fun h => hne (hiff.2 h)⟩

end StumpGen
