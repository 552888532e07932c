import StumpGen.Proofs.Interleaving
import StumpGen.Proofs.ProjectPaths

/-!
# Builds do not depend on the schedule

A build may run its units side by side.  `Build.interleaved` is a build whose units take their
steps in the order of a schedule.

* `Build.independent` : the jobs of a build are independent if the outputs are apart from all
  other files, and no unit reads what the cache keeps for another one.
* `Build.runUnits_eq` : to build one unit after another is to follow a schedule.
* `Build.run_of_schedule` : **for every schedule**, results and files are those of a build of one
  unit after another, and the result of each unit is that of its job alone.
* `Build.crossed_units_differ` : a unit that reads the entry for another one does depend on the
  schedule.
-/

namespace StumpGen

/-! ### Places that do not meet -/

/-- Neither of two places is the other one or lies below it. -/
def FileTree.Apart (a b : FileTree.Place) : Prop := ¬ a <+: b ∧ ¬ b <+: a

instance (a b : FileTree.Place) : Decidable (FileTree.Apart a b) :=
  inferInstanceAs (Decidable (_ ∧ _))

/-- What is apart from a directory is apart from what is in it. -/
theorem FileTree.Apart.concat {a b : FileTree.Place} (h : Apart a b) (n : Text) :
    Apart a (b ++ [n]) := by
  constructor
  · intro hab
    rcases List.prefix_concat_iff.1 hab with rfl | hab
    · exact h.2 (List.prefix_append b [n])
    · exact h.1 hab
  · intro hba
    exact h.2 ((List.prefix_append b [n]).trans hba)

namespace Build

open FileTree StumpGen.Path

/-- What holds both ways of the pairs in a list holds of any two places in it. -/
theorem get_of_pairwise {α : Type} {R : α → α → Prop} (hR : ∀ a b, R a b → R b a) {l : List α}
    (h : l.Pairwise R) {i j : Fin l.length} (hij : i ≠ j) : R (l.get i) (l.get j) := by
  have hpair := List.pairwise_iff_getElem.1 h
  rcases Nat.lt_or_gt_of_ne (Fin.val_ne_of_ne hij) with hlt | hlt
  · exact hpair i j i.isLt j.isLt hlt
  · exact hR _ _ (hpair j i j.isLt i.isLt hlt)

namespace Request

variable (r : Request) (current : Place)

/-- The outputs of a project are apart from its inputs, from each other and from its cache. -/
structure Separate : Prop where
  input : ∀ u ∈ r.project.units, ∀ v ∈ r.project.units,
    Apart (target current u.output) (target current v.input)
  output : r.project.units.Pairwise fun u v =>
    Apart (target current u.output) (target current v.output)
  cache : ∀ u ∈ r.project.units,
    Apart (target current u.output) (target current r.project.cacheDirectory)

/-- Digests tell the outputs of a project apart. -/
def Distinguished : Prop :=
  ∀ u ∈ r.project.units, ∀ v ∈ r.project.units,
    Digest.ofText u.output = Digest.ofText v.output → u.output = v.output

/-- The place where the cache keeps the entry for a unit. -/
def entryPlace (u : Manifest.Source) : Place :=
  target current (Cache.entryPath ⟨r.project.cacheDirectory⟩ u.output)

/-- If there is a cache, no unit reads the entry for another one, or something below it. -/
def EntriesUnread : Prop :=
  r.force = false → r.project.units.Pairwise fun u v =>
    ¬ r.entryPlace current u <+: target current v.input ∧
      ¬ r.entryPlace current v <+: target current u.input

instance : Decidable (r.EntriesUnread current) :=
  inferInstanceAs (Decidable (_ → List.Pairwise _ _))

variable {r current}

theorem Separate.apart (h : r.Separate current) {i j : Fin r.project.units.length} (hij : i ≠ j) :
    Apart (target current (r.project.units.get i).output)
      (target current (r.project.units.get j).output) := by
  exact get_of_pairwise (fun _ _ hab => hab.symm) h.output hij

theorem EntriesUnread.entry (h : r.EntriesUnread current) (hforce : r.force = false)
    {i j : Fin r.project.units.length} (hij : i ≠ j) :
    ¬ r.entryPlace current (r.project.units.get i) <+:
      target current (r.project.units.get j).input := by
  exact (get_of_pairwise (fun _ _ hab => hab.symm) (h hforce) hij).1

end Request

/-! ### Builds that take turns -/

/-- Builds a project with its units taking steps in turn, as a schedule says, and gives what is
known of each of them in the end.  A limit on the number of units that run at a time rules out
schedules. -/
def interleaved {m : Type → Type} [Monad m] [Host m] (r : Request)
    (schedule : List (Fin r.project.units.length)) : m (List UnitResult) := do
  match ← openCache r with
  | .error _ => pure []
  | .ok cache =>
    let stages ← Job.interleave (fun i => r.job cache (r.project.units.get i)) schedule
      fun _ => .start
    pure <| List.ofFn fun i => { unit := r.project.units.get i, result := (stages i).result? }

variable {r : Request} {t t' : FileTree} {cache : Option Cache}

theorem openCache_ok (ht : t.Sound) {d : Route} (hd : d.path = r.project.cacheDirectory)
    (h : t.perform (openCache r) = (.ok cache, t')) :
    Extends t t' ∧ ∀ c, cache = some c → r.force = false ∧ c = ⟨d.path⟩ ∧
      t'.get? (target t.current d.path) = some .directory := by
  rw [openCache] at h
  cases hforce : r.force with
  | true =>
    rw [if_pos hforce] at h
    cases h
    exact ⟨.refl t, fun c hc => nomatch hc⟩
  | false =>
    rw [if_neg (by simp [hforce]), perform_bind, Cache.open?, perform_bind, ← hd] at h
    rcases hmade : t.perform (Host.makeDirectories d.path) with ⟨e | v, u⟩
    · rw [hmade] at h
      cases h
    · rw [hmade] at h
      cases h
      have hto := of_makeDirectories ht hmade
      exact ⟨hto.grown, fun c hc => ⟨rfl, (Option.some.inj hc).symm, hto.get?_self⟩⟩

section Independence

variable {path text : Text} (hproject : Manifest.ofText path text = .ok r.project) (ht : t.Sound)
  (hopen : t.perform (openCache r) = (.ok cache, t'))

include hproject ht hopen

/-- Where the entry for a unit is. -/
theorem entry_target (u : Manifest.Source) {c : Cache} (hc : cache = some c) :
    target t.current (c.entryPath u.output) =
        target t.current r.project.cacheDirectory ++ [Cache.entryName u.output] ∧
      target t.current (c.entryPath u.output) = r.entryPlace t.current u := by
  obtain ⟨d, hd⟩ := Manifest.cacheDirectory_route hproject
  obtain ⟨-, hcache⟩ := openCache_ok ht hd hopen
  obtain ⟨-, rfl, -⟩ := hcache c hc
  refine ⟨?_, by rw [Request.entryPlace, hd]⟩
  rw [Cache.entryPath_eq (c := ⟨d.path⟩) (d := d) rfl, target_child, hd]

variable (hseparate : r.Separate t.current)

include hseparate

/-- The output of a unit is apart from what other ones look at. -/
theorem apart_of_visits {i j : Fin r.project.units.length} (hij : i ≠ j) {p : Place}
    (hp : (r.job cache (r.project.units.get i)).Visits t.current p) :
    Apart (target t.current (r.project.units.get j).output) p := by
  have hi := List.get_mem r.project.units i
  have hj := List.get_mem r.project.units j
  rcases hp with rfl | rfl | ⟨c, hc, rfl⟩
  · exact hseparate.input _ hj _ hi
  · exact hseparate.apart hij.symm
  · have hentry := (entry_target hproject ht hopen (r.project.units.get i) hc).1
    have hcache := (hseparate.cache _ hj).concat (Cache.entryName (r.project.units.get i).output)
    rw [← hentry] at hcache
    exact hcache

/-- The entry for a unit is not on the way to what other ones look at. -/
theorem entry_not_above (hdigests : r.Distinguished) (hentries : r.EntriesUnread t.current)
    {i j : Fin r.project.units.length} (hij : i ≠ j) {p : Place}
    (hp : (r.job cache (r.project.units.get i)).Visits t.current p) {c : Cache}
    (hc : cache = some c) :
    ¬ target t.current (c.entryPath (r.project.units.get j).output) <+: p := by
  have hi := List.get_mem r.project.units i
  have hj := List.get_mem r.project.units j
  obtain ⟨hentry, hplace⟩ := entry_target hproject ht hopen (r.project.units.get j) hc
  rcases hp with rfl | rfl | ⟨c', hc', rfl⟩
  · rw [hplace]
    obtain ⟨d, hd⟩ := Manifest.cacheDirectory_route hproject
    obtain ⟨-, hcache⟩ := openCache_ok ht hd hopen
    exact hentries.entry (hcache c hc).1 hij.symm
  · rw [hentry]
    exact ((hseparate.cache _ hi).concat _).2
  · -- two entries in one directory have different names
    have hentry' := (entry_target hproject ht hopen (r.project.units.get i) hc').1
    rw [hentry]
    intro hname
    change _ <+: target t.current (c'.entryPath (r.project.units.get i).output) at hname
    rw [hentry', List.prefix_append_right_inj] at hname
    have hdigest := Cache.digest_of_entryName (List.cons_prefix_cons.1 hname).1
    have houtput := hdigests _ hj _ hi hdigest
    have hapart := hseparate.apart hij
    rw [houtput] at hapart
    exact hapart.1 List.prefix_rfl

/-- **The jobs of a build are independent.** -/
theorem independent (hdigests : r.Distinguished) (hentries : r.EntriesUnread t.current) :
    Job.Independent (fun i => r.job cache (r.project.units.get i)) t' := by
  obtain ⟨d, hd⟩ := Manifest.cacheDirectory_route hproject
  obtain ⟨hext, hcache⟩ := openCache_ok ht hd hopen
  refine ⟨fun i => ?_, fun i => ?_, ?_, ?_, ?_⟩
  · obtain ⟨hinput, houtput⟩ := Manifest.unit_routes hproject _ (List.get_mem _ i)
    exact ⟨hinput, houtput, fun c hc => ⟨d, congrArg Cache.directory (hcache c hc).2.1.symm⟩⟩
  · refine ⟨hext.sound ht, fun c hc => ?_⟩
    rw [hext.current, (hcache c hc).2.1]
    exact (hcache c hc).2.2
  · rw [hext.current]
    rintro i j hij p hp k x (rfl | ⟨c, hc, rfl⟩)
    · exact (apart_of_visits hproject ht hopen hseparate hij hp).1
    · exact entry_not_above hproject ht hopen hseparate hdigests hentries hij hp hc
  · rw [hext.current]
    rintro i j hij p hp ⟨hbelow, -⟩
    exact (apart_of_visits hproject ht hopen hseparate hij hp).2 hbelow
  · rw [hext.current]
    rintro i j c hc x htouch
    have hdirectory : c.directory = r.project.cacheDirectory := by
      rw [(hcache c hc).2.1, hd]
    rw [hdirectory] at htouch
    rcases htouch with h | ⟨c', hc', h⟩
    · have hapart := hseparate.cache _ (List.get_mem r.project.units j)
      exact hapart.2 (h ▸ List.prefix_rfl)
    · have hentry := (entry_target hproject ht hopen (r.project.units.get j) hc').1
      have hlength := congrArg List.length (h.trans hentry)
      simp at hlength

end Independence

/-! ### One unit after another -/

/-- Each unit in turn takes all its steps. -/
def inOrder {n : Nat} (is : List (Fin n)) : List (Fin n) := is.flatMap (List.replicate 4)

theorem mem_inOrder {n : Nat} {is : List (Fin n)} {i : Fin n} : i ∈ inOrder is ↔ i ∈ is := by
  simp [inOrder]

/-- **Units that are built one after another** follow a schedule too. -/
theorem runUnits_eq (r : Request) (cache : Option Cache) {is : List (Fin r.project.units.length)}
    (his : is.Nodup) (stages : Fin r.project.units.length → Job.Stage)
    (hstart : ∀ i ∈ is, stages i = .start) (t : FileTree) (b : Result) :
    (t.perform (runUnits r cache (is.map r.project.units.get) b)).1.units =
        b.units ++ is.map (fun i => {
          unit := r.project.units.get i
          result := ((t.perform (Job.interleave (fun i => r.job cache (r.project.units.get i))
            (inOrder is) stages)).1 i).result? }) ∧
      (t.perform (runUnits r cache (is.map r.project.units.get) b)).2 =
        (t.perform (Job.interleave (fun i => r.job cache (r.project.units.get i))
          (inOrder is) stages)).2 := by
  induction is generalizing stages t b with
  | nil => exact ⟨(List.append_nil _).symm, rfl⟩
  | cons i is ih =>
    obtain ⟨hi, his⟩ := List.nodup_cons.1 his
    have hrun := Job.interleave_replicate (fun i => r.job cache (r.project.units.get i)) t
      (hstart i List.mem_cons_self) 4
    rw [Job.after_run _ _ (Nat.le_refl 4)] at hrun
    rw [inOrder, List.flatMap_cons, Job.perform_interleave_append, hrun, List.map_cons, runUnits,
      perform_bind]
    generalize t.perform (Job.run (r.job cache (r.project.units.get i))) = ended at hrun ⊢
    obtain ⟨res, u⟩ := ended
    have hnext : ∀ j ∈ is, Function.update stages i (.done res) j = .start := by
      intro j hj
      have hji : j ≠ i := by
        rintro rfl
        exact hi hj
      rw [Function.update_of_ne hji]
      exact hstart j (List.mem_cons_of_mem i hj)
    obtain ⟨hunits, htree⟩ := ih his _ hnext u {
      events := b.events ++ unitEvents (r.project.relative (r.project.units.get i).input) res
      units := b.units ++ [{ unit := r.project.units.get i, result := some res }]
      timings := b.timings.addRuns res.runs
      error := b.error }
    -- the later units leave the result alone
    have hkeep := Job.interleave_of_notMem (fun i => r.job cache (r.project.units.get i)) u
      (s := inOrder is) (fun h => hi (mem_inOrder.1 h)) (Function.update stages i (.done res))
    rw [Function.update_self] at hkeep
    refine ⟨?_, htree⟩
    rw [hunits, List.map_cons, List.append_assoc]
    simp only [inOrder] at hkeep
    simp only [hkeep]
    rfl

theorem count_inOrder {n : Nat} (i : Fin n) : 4 ≤ (inOrder (List.finRange n)).count i := by
  have hsub : List.Sublist (List.replicate 4 i) (inOrder (List.finRange n)) :=
    List.sublist_flatten_of_mem (List.mem_map_of_mem (List.mem_finRange i))
  have hcount := hsub.count_le i
  rwa [List.count_replicate_self] at hcount

theorem perform_run_error {e : FileError} (h : t.perform (openCache r) = (.error e, t')) :
    t.perform (run r false) = ({ error := some (.cache e) }, t') := by
  rw [run, perform_bind, h]
  rfl

/-- A build that is not called off follows the schedule that takes the units in order. -/
theorem perform_run_ok (h : t.perform (openCache r) = (.ok cache, t')) :
    (t.perform (run r false)).1.units = (List.finRange r.project.units.length).map (fun i => {
        unit := r.project.units.get i
        result := ((t'.perform (Job.interleave (fun i => r.job cache (r.project.units.get i))
          (inOrder (List.finRange _)) fun _ => .start)).1 i).result? }) ∧
      (t.perform (run r false)).2 =
        (t'.perform (Job.interleave (fun i => r.job cache (r.project.units.get i))
          (inOrder (List.finRange _)) fun _ => .start)).2 := by
  have hunits : (List.finRange r.project.units.length).map r.project.units.get =
      r.project.units := List.map_get_finRange _
  have hrun := runUnits_eq r cache (List.nodup_finRange _) (fun _ => .start) (fun _ _ => rfl) t'
    { events := r.project.units.map (queuedEvent r.project) }
  rw [hunits] at hrun
  rw [run, perform_bind, h]
  exact hrun

theorem perform_interleaved_ok (h : t.perform (openCache r) = (.ok cache, t'))
    (s : List (Fin r.project.units.length)) :
    t.perform (interleaved r s) =
      ((List.finRange r.project.units.length).map (fun i => {
        unit := r.project.units.get i
        result := ((t'.perform (Job.interleave (fun i => r.job cache (r.project.units.get i)) s
          fun _ => .start)).1 i).result? }),
      (t'.perform (Job.interleave (fun i => r.job cache (r.project.units.get i)) s
        fun _ => .start)).2) := by
  rw [interleaved, perform_bind, h, ← List.ofFn_eq_map]
  rfl

/-- The results of jobs that have ended, unit by unit. -/
theorem results_eq {stages : Fin r.project.units.length → Job.Stage}
    (h : ∀ i, stages i =
      .done (t'.perform (Job.run (r.job cache (r.project.units.get i)))).1) :
    (List.finRange r.project.units.length).map (fun i =>
        ({ unit := r.project.units.get i, result := (stages i).result? } : UnitResult)) =
      r.project.units.map fun u =>
        { unit := u, result := some (t'.perform (Job.run (r.job cache u))).1 } := by
  have hmap := congrArg (List.map fun u =>
    ({ unit := u, result := some (t'.perform (Job.run (r.job cache u))).1 } : UnitResult))
    (List.map_get_finRange r.project.units)
  rw [List.map_map] at hmap
  rw [← hmap]
  refine List.map_congr_left fun i _ => ?_
  rw [h i]
  rfl

/-- **Builds do not depend on the schedule.**  The outputs of a project are apart from its inputs,
from each other and from its cache, digests tell them apart, and no unit reads what the cache
keeps for another one.  Then for every schedule in which all units end, the results are those of
a build of one unit after another, and so are all files.  The result of each unit is that of its
job alone, whether or not other units fail. -/
theorem run_of_schedule {r : Request} {path text : Text}
    (hproject : Manifest.ofText path text = .ok r.project) {t : FileTree} (ht : t.Sound)
    (hseparate : r.Separate t.current) (hdigests : r.Distinguished)
    (hentries : r.EntriesUnread t.current) {s : List (Fin r.project.units.length)}
    (hs : ∀ i, 4 ≤ s.count i) :
    (t.perform (interleaved r s)).1 = (t.perform (run r false)).1.units ∧
      (∀ k, (t.perform (interleaved r s)).2.get? k = (t.perform (run r false)).2.get? k) ∧
      ∀ cache t', t.perform (openCache r) = (.ok cache, t') →
        (t.perform (interleaved r s)).1 = r.project.units.map fun u =>
          { unit := u, result := some (t'.perform (Job.run (r.job cache u))).1 } := by
  rcases hopen : t.perform (openCache r) with ⟨e | cache, t'⟩
  · rw [perform_run_error hopen, interleaved, perform_bind, hopen]
    exact ⟨rfl, fun _ => rfl, by rintro _ _ ⟨⟩⟩
  · have hjobs := independent hproject ht hopen hseparate hdigests hentries
    obtain ⟨hstages, hmerged⟩ := hjobs.interleave_done hs
    obtain ⟨hstages', hmerged'⟩ := hjobs.interleave_done count_inOrder
    obtain ⟨hunits, htree⟩ := perform_run_ok hopen
    rw [perform_interleaved_ok hopen, hunits, htree, results_eq hstages, results_eq hstages']
    refine ⟨rfl, fun k => hmerged.unique hmerged' k, ?_⟩
    rintro _ _ ⟨⟩
    rfl

/-- A project with two units. -/
def siblings : Request where
  project := {
    path := "fstump.toml"
    root := "."
    target := {}
    units := [{ input := "a.mp", output := "o.s" }, { input := "b.mp", output := "d/p.s" }] }

/-- The manifest of the project. -/
def siblingsText : Text :=
  "[[unit]]\ninput = \"a.mp\"\noutput = \"o.s\"\n" ++
    "[[unit]]\ninput = \"b.mp\"\noutput = \"d/p.s\"\n"

/-- A tree that has the input of one unit only. -/
def siblingsTree : FileTree := { entries := [(["a.mp"], .file [0x80])] }

/-- A schedule in which both units take turns. -/
def turns : List (Fin siblings.project.units.length) :=
  ([1, 0, 0, 1, 1, 0, 1, 0] : List (Fin 2))

/-- One of two units fails while the other one is at work. -/
theorem run_of_schedule_siblings :
    Manifest.ofText "fstump.toml" siblingsText = .ok siblings.project ∧ siblingsTree.Sound ∧
      siblings.Separate siblingsTree.current ∧ siblings.Distinguished ∧
      siblings.EntriesUnread siblingsTree.current ∧ (∀ i, 4 ≤ turns.count i) ∧
      (siblingsTree.perform (interleaved siblings turns)).1 =
        (siblingsTree.perform (run siblings false)).1.units ∧
      (siblingsTree.perform (interleaved siblings turns)).1.map UnitResult.hasFailed =
        [false, true] := by
  have hproject : Manifest.ofText "fstump.toml" siblingsText = .ok siblings.project := by
    decide +kernel
  have hsound : siblingsTree.Sound := by decide +kernel
  have hseparate : siblings.Separate siblingsTree.current :=
    ⟨by decide +kernel, by decide +kernel, by decide +kernel⟩
  have hdigests : siblings.Distinguished := by
    have hdiffer : Digest.ofText "o.s" ≠ Digest.ofText "d/p.s" := by decide +kernel
    simp [Request.Distinguished, siblings, hdiffer, hdiffer.symm]
  have hentries : siblings.EntriesUnread siblingsTree.current := by decide +kernel
  have hturns : ∀ i, 4 ≤ turns.count i := by decide
  exact ⟨hproject, hsound, hseparate, hdigests, hentries, hturns,
    (run_of_schedule hproject hsound hseparate hdigests hentries hturns).1, by decide +kernel⟩

/-- The name of the entry for `o.s`. -/
def entryFile : Text := "708cf1ced36efb580194af50c1b1961035387818aefa095ea64b6fc327da546b.mp"

/-- A project whose second unit reads the entry for the first one. -/
def crossed : Request where
  project := {
    path := "fstump.toml"
    root := "."
    target := {}
    units := [
      { input := "a.mp", output := "o.s" },
      { input := ".fstump/cache/" ++ entryFile, output := "p.s" }] }

/-- The manifest of the project. -/
def crossedText : Text :=
  "[[unit]]\ninput = \"a.mp\"\noutput = \"o.s\"\n" ++
    "[[unit]]\ninput = \".fstump/cache/" ++ entryFile ++ "\"\noutput = \"p.s\"\n"

/-- A tree with both inputs, where that of the second unit is a program so far. -/
def crossedTree : FileTree where
  entries := [(["a.mp"], .file [0x80]), ([".fstump"], .directory),
    ([".fstump", "cache"], .directory), ([".fstump", "cache", entryFile], .file [0x80])]

/-- The second unit comes first. -/
def reversed : List (Fin crossed.project.units.length) :=
  ([1, 1, 1, 1, 0, 0, 0, 0] : List (Fin 2))

/-- **A unit that reads the entry for another one** sees it come: it succeeds only as long as the
other one has not stored its entry, be it that it comes later, or that it fails. -/
theorem crossed_units_differ :
    Manifest.ofText "fstump.toml" crossedText = .ok crossed.project ∧ crossedTree.Sound ∧
      crossed.Separate crossedTree.current ∧ crossed.Distinguished ∧
      (∀ i, 4 ≤ reversed.count i) ∧
      (crossedTree.perform (interleaved crossed reversed)).1 ≠
        (crossedTree.perform (run crossed false)).1.units ∧
      (crossedTree.perform (run crossed false)).1.units.map UnitResult.hasFailed =
        [false, true] ∧
      ((crossedTree.remove "a.mp").perform (run crossed false)).1.units.map
        UnitResult.hasFailed = [true, false] := by
  have hseparate : crossed.Separate crossedTree.current :=
    ⟨by decide +kernel, by decide +kernel, by decide +kernel⟩
  have hdigests : crossed.Distinguished := by
    have hdiffer : Digest.ofText "o.s" ≠ Digest.ofText "p.s" := by decide +kernel
    simp [Request.Distinguished, crossed, hdiffer, hdiffer.symm]
  have hfirst : (crossedTree.perform (interleaved crossed reversed)).1.map UnitResult.hasFailed =
      [false, false] := by decide +kernel
  have hlast : (crossedTree.perform (run crossed false)).1.units.map UnitResult.hasFailed =
      [false, true] := by decide +kernel
  refine ⟨by decide +kernel, by decide +kernel, hseparate, hdigests, by decide, ?_, hlast,
    by decide +kernel⟩
  intro hsame
  rw [hsame, hlast] at hfirst
  cases hfirst

end Build

end StumpGen
