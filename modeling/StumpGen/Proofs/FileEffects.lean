import StumpGen.FileTree
import StumpGen.Job
import Mathlib.Tactic.SplitIfs

/-!
# What a job does to the files

A job writes at most two files: the listing to its output, and after that an entry to the cache.
`Job.writes` lists them for a job that finds a given tree, the latest first, each with the place
where it goes.  The rest of this module shows that nothing else happens: at every other place
the tree stays as it was, but for directories that come into being where nothing was.

* `FileTree.Effect` : how a tree changes when files are written; effects one after another make
  up one effect (`Effect.trans`).
* `FileTree.place_eq` : where a path leads, if it leads anywhere, does not depend on the files.
* `Job.run_effect` : **the effect of a job is to write the files of `Job.writes`**.
* `Job.run_cached` : a job that finds its output up to date leaves the tree alone.
-/

namespace StumpGen

namespace FileTree

/-! ### Places -/

/-- The place that names lead to from `k`, wherever there are directories. -/
def lead (k : Place) : List Text → Place
  | [] => k
  | name :: names =>
    if name = [] ∨ name = Path.here then lead k names
    else if name = Path.parent then lead k.dropLast names
    else lead (k ++ [name]) names

/-- The place that a path leads to from `current`, if it leads anywhere. -/
def target (current : Place) (p : Text) : Place :=
  lead (if Path.isAbsolute p then [] else current) (p.split Path.slash)

variable {t t' : FileTree} {k j : Place} {p x : Text}

theorem follow_eq {names : List Text} (h : t.follow k names = .ok j) : j = lead k names := by
  induction names generalizing k with
  | nil => exact (Except.ok.inj h).symm
  | cons name names ih =>
    rw [follow] at h
    cases hk : t.get? k with
    | none => simp [hk] at h
    | some e =>
      cases e with
      | file c => simp [hk] at h
      | directory =>
        simp only [hk] at h
        rw [lead]
        split_ifs at h ⊢ <;> exact ih h

theorem ne_nil_of_place (h : t.place p = .ok k) : p ≠ [] := by
  rintro rfl
  cases h

theorem place_eq (h : t.place p = .ok k) : k = target t.current p := by
  rw [place, if_neg (ne_nil_of_place h)] at h
  exact follow_eq h

theorem read_eq_ok : t.read p = .ok x ↔ ∃ k, t.place p = .ok k ∧ t.get? k = some (.file x) := by
  rw [read]
  cases hp : t.place p with
  | error c => simp
  | ok k =>
    cases hk : t.get? k with
    | none => simp [hk]
    | some e => cases e <;> simp [hk]

theorem place_of_kind {kind : FileKind} (h : t.kind p = .ok kind) :
    t.place p = .ok (target t.current p) := by
  rw [FileTree.kind] at h
  cases hp : t.place p with
  | error c => simp [hp] at h
  | ok k => rw [place_eq hp]

/-! ### Effects -/

theorem get?_set (hk : k ≠ []) (e : Entry) (j : Place) :
    (t.set k e).get? j = if j = k then some e else t.get? j := by
  have hf (es : List (Place × Entry)) (hj : j ≠ k) :
      (es.filter (·.1 ≠ k)).lookup j = es.lookup j := by
    induction es with
    | nil => rfl
    | cons a es ih =>
      obtain ⟨i, x⟩ := a
      by_cases ha : i = k
      · have haj : (j == k) = false := beq_eq_false_iff_ne.2 hj
        simpa [List.filter_cons, ha, List.lookup_cons, haj] using ih
      · simp only [ne_eq, ha, not_false_eq_true, decide_true, List.filter_cons_of_pos,
          List.lookup_cons, ← ih]
  by_cases hj : j = k
  · subst hj
    simp [get?, set, hk]
  · have hjk : (j == k) = false := beq_eq_false_iff_ne.2 hj
    simp only [get?, set, if_neg hj, List.lookup_cons, hjk, hf _ hj]

/-- How a tree changes at the places `P`.  Files are written there, which are listed with their
contents, the latest first; besides that only directories come into being where nothing was. -/
structure Effect (P : Place → Prop) (t : FileTree) (ws : List (Place × Text)) (t' : FileTree) :
    Prop where
  current : t'.current = t.current
  written : ∀ k x, P k → ws.lookup k = some x → t'.get? k = some (.file x)
  kept : ∀ k, P k → ws.lookup k = none →
    t'.get? k = t.get? k ∨ t.get? k = none ∧ t'.get? k = some .directory

namespace Effect

variable {P : Place → Prop} {ws vs : List (Place × Text)} {t'' : FileTree}

theorem refl (P : Place → Prop) (t : FileTree) : Effect P t [] t where
  current := rfl
  written := fun _ _ _ h => nomatch h
  kept := fun _ _ _ => .inl rfl

/-- **Effects one after another.** -/
theorem trans (h : Effect P t ws t') (h' : Effect P t' vs t'') : Effect P t (vs ++ ws) t'' where
  current := h'.current.trans h.current
  written k x hk hx := by
    rw [List.lookup_append] at hx
    cases hv : vs.lookup k with
    | some y =>
      rw [hv] at hx
      obtain rfl : y = x := Option.some.inj hx
      exact h'.written k y hk hv
    | none =>
      -- what was written before is a file, and so it is kept
      rw [hv, Option.none_or] at hx
      have hf := h.written k x hk hx
      rcases h'.kept k hk hv with he | ⟨hn, -⟩
      · rw [he, hf]
      · rw [hf] at hn
        cases hn
  kept k hk hx := by
    rw [List.lookup_append, Option.or_eq_none_iff] at hx
    rcases h.kept k hk hx.2 with he | ⟨hn, hd⟩
    · rw [← he]
      exact h'.kept k hk hx.1
    · rcases h'.kept k hk hx.1 with he' | ⟨hn', -⟩
      · exact .inr ⟨hn, he'.trans hd⟩
      · rw [hd] at hn'
        cases hn'

/-- A file is put where no directory is. -/
theorem put (P : Place → Prop) (hd : t.get? k ≠ some .directory) (x : Text) :
    Effect P t [(k, x)] (t.set k (.file x)) := by
  have hk : k ≠ [] := by
    rintro rfl
    exact hd rfl
  refine ⟨rfl, fun j y _ hy => ?_, fun j _ hj => .inl ?_⟩
  · rw [get?_set hk]
    by_cases hjk : j = k
    · simp_all
    · have : (j == k) = false := beq_eq_false_iff_ne.2 hjk
      simp [List.lookup_cons, this] at hy
  · rw [get?_set hk, if_neg]
    rintro rfl
    simp at hj

end Effect

theorem write_effect (P : Place → Prop) (h : t.write p x = .ok t') :
    Effect P t [(target t.current p, x)] t' := by
  rw [write] at h
  cases hp : t.place p with
  | error c => simp [hp] at h
  | ok k =>
    simp only [hp] at h
    split_ifs at h with hd
    rw [← place_eq hp, ← Except.ok.inj h]
    exact .put P hd x

theorem replace_effect (P : Place → Prop) (h : t.replace p x = .ok t') :
    Effect P t [(target t.current p, x)] t' := by
  rw [replace] at h
  cases hu : t.place (unfinished p) with
  | error c => simp [hu] at h
  | ok u =>
    cases hp : t.place p with
    | error c => simp [hu, hp] at h
    | ok k =>
      simp only [hu, hp] at h
      split_ifs at h with hd
      rw [← place_eq hp, ← Except.ok.inj h]
      exact .put P hd x

theorem makeDirectory_effect (P : Place → Prop) (h : t.makeDirectory p = .ok t') :
    Effect P t [] t' := by
  rw [makeDirectory] at h
  cases hp : t.place p with
  | error c => simp [hp] at h
  | ok k =>
    simp only [hp] at h
    split_ifs at h with hd
    rw [← Except.ok.inj h]
    have hn : t.get? k = none := by simpa using hd
    have hk : k ≠ [] := by
      rintro rfl
      cases hn
    refine ⟨rfl, fun _ _ _ hy => (nomatch hy), fun j _ _ => ?_⟩
    rw [get?_set hk]
    split_ifs with hj
    · exact .inr ⟨hj ▸ hn, rfl⟩
    · exact .inl rfl

/-! ### Actions -/

/-- What an action gives on a tree, and the tree that it leaves. -/
def perform {α : Type} (t : FileTree) (act : StateM FileTree α) : α × FileTree := act.run t

section Perform

variable {α β : Type} (t : FileTree)

theorem perform_pure (a : α) : t.perform (pure a) = (a, t) := rfl

theorem perform_bind (x : StateM FileTree α) (f : α → StateM FileTree β) :
    t.perform (x >>= f) = (t.perform x).2.perform (f (t.perform x).1) := (rfl)

theorem perform_read (p : Text) : t.perform (Host.read p) = (t.read p, t) := rfl

theorem perform_kind (p : Text) : t.perform (Host.kind p) = (t.kind p, t) := rfl

/-- An operation that does not succeed leaves the tree as it is. -/
theorem perform_update (f : FileTree → Except FileError FileTree) :
    t.perform (update f) = match f t with
      | .error e => (.error e, t)
      | .ok t' => (.ok (), t') := rfl

end Perform

theorem perform_makeDirectory_effect (P : Place → Prop) (t : FileTree) (p : Text) :
    Effect P t [] (t.perform (Host.makeDirectory p)).2 := by
  have hp : t.perform (Host.makeDirectory p) = t.perform (update (·.makeDirectory p)) := rfl
  rw [hp, perform_update]
  cases hm : t.makeDirectory p with
  | error e => exact .refl P t
  | ok t' => exact makeDirectory_effect P hm

/-- **Making directories** writes no file. -/
theorem makeChain_effect (P : Place → Prop) (t : FileTree) (ps : List Text) :
    Effect P t [] (t.perform (Host.makeChain ps)).2 := by
  induction ps with
  | nil => exact .refl P t
  | cons p above ih =>
    rw [Host.makeChain, perform_bind, perform_kind]
    cases t.kind p with
    | ok c =>
      cases c <;> exact .refl P t
    | error e =>
      simp only [perform_bind]
      cases (t.perform (Host.makeChain above)).1 with
      | error e => exact ih
      | ok u =>
        have hm := ih.trans
          (perform_makeDirectory_effect P (t.perform (Host.makeChain above)).2 p)
        rw [perform_bind]
        cases ((t.perform (Host.makeChain above)).2.perform (Host.makeDirectory p)).1 with
        | ok u => exact hm
        | error e =>
          simp only [perform_bind, perform_kind]
          split <;> exact hm

end FileTree

namespace Cache

open FileTree

variable {t : FileTree} {c : Cache} {output : Text} {e : Entry}

/-- An entry is looked for in its file, which stays as it is. -/
theorem perform_get (t : FileTree) (c : Cache) (output : Text) :
    t.perform (c.get output) = (match t.read (c.entryPath output) with
      | .error e => if e.cause = .missing then .ok none else .error (.file e)
      | .ok x =>
        match Entry.decode x with
        | none => .error .malformed
        | some e => .ok (e.checked? output), t) := by
  rw [get, perform_bind, perform_read]
  cases t.read (c.entryPath output) with
  | error e => rfl
  | ok x => cases hd : Entry.decode x <;> simp only [hd, perform_pure]

/-- A lookup gives what can be read from the file of the output, if it is of this version and for
this output. -/
theorem get_eq_ok_iff : (t.perform (c.get output)).1 = .ok (some e) ↔
    ∃ x, t.read (c.entryPath output) = .ok x ∧ Entry.decode x = some e ∧
      e.schema = schemaVersion ∧ e.output = output := by
  rw [perform_get]
  cases t.read (c.entryPath output) with
  | error f =>
    simp only [reduceCtorEq, false_and, exists_false, iff_false]
    split <;> simp
  | ok x =>
    cases hd : Entry.decode x with
    | none => simp [hd]
    | some e' =>
      simp only [hd, Except.ok.injEq, exists_eq_left', Entry.checked?]
      constructor
      · intro h
        split at h
        next hc =>
          obtain rfl := Option.some.inj h
          exact ⟨rfl, hc⟩
        next => cases h
      · rintro ⟨he, hc⟩
        obtain rfl := Option.some.inj he
        rw [if_pos hc]

/-- **An entry that is found** was read from the file for the output, and something is there.
Looking for it changes nothing. -/
theorem perform_fresh (t : FileTree) (c : Cache) (output : Text) (fp : Digest) :
    ∃ found, t.perform (c.fresh output fp) = (found, t) ∧ ∀ e, found = some e →
      (∃ x, t.read (c.entryPath output) = .ok x ∧ Entry.decode x = some e) ∧ e.output = output ∧
        e.fingerprint = fp ∧ ∃ kind, t.kind output = .ok kind := by
  have hs : (t.perform (c.get output)).2 = t := by rw [perform_get]
  rw [fresh, perform_bind, hs]
  cases hg : (t.perform (c.get output)).1 with
  | error e => exact ⟨none, rfl, fun _ h => nomatch h⟩
  | ok found =>
    cases found with
    | none => exact ⟨none, rfl, fun _ h => nomatch h⟩
    | some e =>
      by_cases hf : e.fingerprint = fp
      · simp only [if_pos hf, perform_bind, perform_kind]
        cases hk : t.kind output with
        | error f => exact ⟨none, rfl, fun _ h => nomatch h⟩
        | ok kind =>
          refine ⟨some e, rfl, fun e' he => ?_⟩
          obtain rfl := Option.some.inj he
          obtain ⟨x, hr, hd, -, ho⟩ := get_eq_ok_iff.1 hg
          exact ⟨⟨x, hr, hd⟩, ho, hf, kind, rfl⟩
      · simp only [if_neg hf]
        exact ⟨none, rfl, fun _ h => nomatch h⟩

end Cache

namespace Job

open FileTree

variable {r : Request} {t : FileTree} {contents : Text} {p : Program}

theorem perform_timed {α : Type} (t : FileTree) (name : Text)
    (act : StateM FileTree (Except Fault α)) :
    ∃ run, t.perform (timed name act) = (((t.perform act).1, run), (t.perform act).2) :=
  ⟨_, rfl⟩

/-- The contents of a job's input, and the program in it. -/
def loaded (r : Request) (t : FileTree) : Except Fault (Text × Program) :=
  (t.perform (loadInput r.input)).1

theorem perform_loadInput (r : Request) (t : FileTree) :
    t.perform (loadInput r.input) = (loaded r t, t) := by
  refine Prod.ext rfl ?_
  rw [loadInput]
  cases Document.Format.ofPath r.input with
  | error f => rfl
  | ok format =>
    simp only [perform_bind, perform_read]
    cases t.read r.input <;> rfl

/-- The entry that tells that the output is up to date for an input. -/
def fresh? (r : Request) (t : FileTree) (contents : Text) : Option Cache.Entry :=
  match r.cache with
  | some c => (t.perform (c.fresh r.output (r.fingerprint contents))).1
  | none => none

/-- Looking for the entry changes nothing. -/
theorem perform_freshIn (r : Request) (t : FileTree) (contents : Text) :
    t.perform (Cache.freshIn r.cache r.output (r.fingerprint contents)) =
      (fresh? r t contents, t) := by
  rw [fresh?]
  cases r.cache with
  | none => rfl
  | some c =>
    obtain ⟨found, hf, -⟩ := c.perform_fresh t r.output (r.fingerprint contents)
    simp only [Cache.freshIn, hf]

/-- The entry that a job stores for a compilation of its input. -/
def entry (r : Request) (contents : Text) (c : Compilation) : Cache.Entry where
  schema := Cache.schemaVersion
  output := r.output
  fingerprint := r.fingerprint contents
  words := c.stats.instructions
  capacity := c.stats.capacity

/-- The file that a job writes for its listing. -/
def listed (r : Request) (t : FileTree) (text : Text) : List (Place × Text) :=
  if r.output = [] then [] else [(target t.current r.output, text)]

/-- The file that a job writes for its entry. -/
def stored (r : Request) (t : FileTree) (e : Cache.Entry) : List (Place × Text) :=
  match r.cache with
  | none => []
  | some cache =>
    match (t.perform (cache.put e)).1 with
    | .ok () => [(target t.current (cache.entryPath e.output), e.encode)]
    | .error _ => []

/-- The files that a job writes when it finds the tree `t`, the latest first. -/
def writes (r : Request) (t : FileTree) : List (Place × Text) :=
  match loaded r t with
  | .error _ => []
  | .ok (contents, p) =>
    if (fresh? r t contents).isSome then []
    else
      let c := compile p r.options
      match t.perform (writeOutput r c.text) with
      | (.error _, _) => []
      | (.ok (), t') =>
        (if c.fault.isSome then [] else stored r t' (entry r contents c)) ++ listed r t c.text

/-! ### The steps of a job -/

theorem perform_writeFile (P : Place → Prop) (t : FileTree) (path text : Text) :
    Effect P t (match (t.perform (Host.write path text)).1 with
      | .ok () => [(target t.current path, text)]
      | .error _ => []) (t.perform (Host.write path text)).2 := by
  have hp : t.perform (Host.write path text) = t.perform (update (·.write path text)) := rfl
  rw [hp, perform_update]
  cases hw : t.write path text with
  | error f => exact .refl P t
  | ok t' => exact write_effect P hw

theorem writeOutput_effect (P : Place → Prop) {r : Request} {t t' : FileTree} {text : Text}
    {w : Except Fault Unit} (h : t.perform (writeOutput r text) = (w, t')) :
    Effect P t (match w with
      | .ok () => listed r t text
      | .error _ => []) t' := by
  rw [writeOutput] at h
  split at h
  · cases h
    exact .refl P t
  · split_ifs at h with ho
    · cases h
      rw [listed, if_pos ho]
      exact .refl P t
    · -- the directory is made first, which leaves the way to the output as it was
      have hd := makeChain_effect P t (Path.ancestors (Path.directory r.output))
      rw [perform_bind, Host.makeDirectories] at h
      generalize t.perform (Host.makeChain (Path.ancestors (Path.directory r.output))) = m at h hd
      obtain ⟨m, t₁⟩ := m
      cases m with
      | error e =>
        cases h
        exact hd
      | ok u =>
        have hw := perform_writeFile P t₁ r.output text
        rw [hd.current] at hw
        simp only [perform_bind] at h
        generalize t₁.perform (Host.write r.output text) = v at h hw
        obtain ⟨v, t₂⟩ := v
        rw [listed, if_neg ho]
        cases v with
        | error e =>
          cases h
          exact hd.trans hw
        | ok u =>
          cases h
          exact hd.trans hw

theorem stored_effect (P : Place → Prop) (r : Request) (t : FileTree) {e : Cache.Entry}
    (he : e.schema = Cache.schemaVersion) :
    Effect P t (stored r t e) (match r.cache with
      | some cache => (t.perform (cache.put e)).2
      | none => t) := by
  rw [stored]
  cases r.cache with
  | none => exact .refl P t
  | some cache =>
    have hp : t.perform (cache.put e)
        = t.perform (update (·.replace (cache.entryPath e.output) e.encode)) := by
      obtain ⟨schema, output, fingerprint, words, capacity⟩ := e
      obtain rfl : schema = Cache.schemaVersion := he
      rfl
    simp only [hp, perform_update]
    cases hr : t.replace (cache.entryPath e.output) e.encode with
    | error f => exact .refl P t
    | ok t' => exact replace_effect P hr

theorem perform_load_error {f : Fault} (h : loaded r t = .error f) :
    ∃ runs, t.perform (load r) =
      (.error (r.result { runs, fault := some f, calls := openingCalls }), t) := by
  obtain ⟨run, hrun⟩ := perform_timed t "load" (loadInput r.input)
  rw [perform_loadInput, h] at hrun
  rw [load, perform_bind, hrun]
  exact ⟨_, rfl⟩

theorem perform_load_ok (h : loaded r t = .ok (contents, p)) :
    ∃ l : Loaded, t.perform (load r) = (.ok l, t) ∧ l.program = p ∧
      l.fingerprint = r.fingerprint contents ∧ l.calls = openingCalls := by
  obtain ⟨run, hrun⟩ := perform_timed t "load" (loadInput r.input)
  rw [perform_loadInput, h] at hrun
  rw [load, perform_bind, hrun]
  exact ⟨_, rfl, rfl, rfl, rfl⟩

/-- The cache is asked for the entry, and nothing changes. -/
theorem perform_check_some {l : Loaded} (hl : l.fingerprint = r.fingerprint contents)
    {e : Cache.Entry} (he : fresh? r t contents = some e) :
    t.perform (check r l) =
      (.error (r.result {
        stats := { instructions := e.words, capacity := e.capacity }
        runs := l.runs
        cached := true
        calls := l.calls }), t) := by
  rw [check, hl, perform_bind, perform_freshIn, he]
  rfl

theorem perform_check_none {l : Loaded} (hl : l.fingerprint = r.fingerprint contents)
    (he : fresh? r t contents = none) :
    ∃ g : Generated, t.perform (check r l) = (.ok g, t) ∧
      g.fingerprint = r.fingerprint contents ∧ g.compilation = compile l.program r.options ∧
      g.calls = l.calls ++ g.compilation.activities.map (·.within [.job]) := by
  rw [check, hl, perform_bind, perform_freshIn, he]
  exact ⟨_, rfl, rfl, rfl, rfl⟩

/-- What a job knows when it ends, if it has compiled its program.  The tracer was told of the job,
then all that the compilation did, and behind that at most that the cache could not be written. -/
structure Ending.Follows (e : Ending) (c : Compilation) : Prop where
  /-- The output was not up to date. -/
  cached : e.cached = false
  /-- The warnings are those of the compilation. -/
  warnings : e.warnings = c.warnings
  /-- The calls to the tracer. -/
  calls : ∃ trouble, e.calls = openingCalls ++ c.activities.map (·.within [.job]) ++ trouble ∧
    ∀ a ∈ trouble, ∃ message, a = .point .job .driver "cache" message

/-- The calls to the tracer up to the end of the compilation. -/
def Generated.Told (g : Generated) : Prop :=
  g.calls = openingCalls ++ g.compilation.activities.map (·.within [.job])

section Write

variable {g : Generated} {t' : FileTree}

theorem perform_write_ok (hf : g.compilation.fault = none)
    (hw : t.perform (writeOutput r g.compilation.text) = (.ok (), t')) :
    ∃ g' : Generated, t.perform (write r g) = (.ok g', t') ∧
      g'.fingerprint = g.fingerprint ∧ g'.compilation = g.compilation ∧ g'.calls = g.calls := by
  obtain ⟨run, hrun⟩ := perform_timed t "write" (writeOutput r g.compilation.text)
  rw [hw] at hrun
  rw [write, perform_bind, hrun]
  simp only [hf, perform_pure]
  exact ⟨_, rfl, rfl, rfl, rfl⟩

/-- Unless all went well, the third step is the last one. -/
theorem perform_write_error (hg : g.Told) {w : Except Fault Unit}
    (hw : t.perform (writeOutput r g.compilation.text) = (w, t'))
    (hf : g.compilation.fault = none → w ≠ .ok ()) :
    ∃ e : Ending, t.perform (write r g) = (.error (r.result e), t') ∧
      e.Follows g.compilation := by
  obtain ⟨run, hrun⟩ := perform_timed t "write" (writeOutput r g.compilation.text)
  rw [hw] at hrun
  rw [write, perform_bind, hrun]
  cases hc : g.compilation.fault with
  | some f => exact ⟨_, rfl, rfl, rfl, [], hg.trans (List.append_nil _).symm, by simp⟩
  | none =>
    cases w with
    | error f => exact ⟨_, rfl, rfl, rfl, [], hg.trans (List.append_nil _).symm, by simp⟩
    | ok u => exact absurd rfl (hf hc)

end Write

theorem perform_store (g : Generated) (hg : g.fingerprint = r.fingerprint contents)
    (htold : g.Told) :
    (∃ e : Ending, (t.perform (store r g)).1 = r.result e ∧ e.Follows g.compilation) ∧
      (t.perform (store r g)).2 = match r.cache with
        | some cache => (t.perform (cache.put (entry r contents g.compilation))).2
        | none => t := by
  rw [store]
  cases r.cache with
  | none => exact ⟨⟨_, rfl, rfl, rfl, [], congrArg (· ++ []) htold, by simp⟩, rfl⟩
  | some cache =>
    simp only [perform_bind, hg]
    refine ⟨⟨_, rfl, rfl, rfl, _, congrArg (· ++ _) htold, fun a ha => ?_⟩, rfl⟩
    split at ha
    · exact ⟨_, List.mem_singleton.1 ha⟩
    · cases ha

/-! ### Whole jobs -/

theorem run_error {f : Fault} (h : loaded r t = .error f) :
    ∃ runs, t.perform (run r) =
      (r.result { runs, fault := some f, calls := openingCalls }, t) := by
  obtain ⟨runs, hl⟩ := perform_load_error h
  rw [run, perform_bind, hl]
  exact ⟨runs, rfl⟩

/-- A job that finds its output up to date tells what the entry holds, and does nothing. -/
theorem run_fresh {e : Cache.Entry} (h : loaded r t = .ok (contents, p))
    (he : fresh? r t contents = some e) :
    ∃ runs, t.perform (run r) =
      (r.result {
        stats := { instructions := e.words, capacity := e.capacity }
        runs
        cached := true
        calls := openingCalls }, t) := by
  obtain ⟨l, hl, -, hfp, hcalls⟩ := perform_load_ok h
  rw [run, perform_bind, hl]
  simp only [perform_bind]
  rw [perform_check_some hfp he, hcalls]
  exact ⟨l.runs, rfl⟩

/-- A job that does not find its output up to date tells what the compilation told, and writes its
files. -/
theorem run_stale (P : Place → Prop) (h : loaded r t = .ok (contents, p))
    (he : fresh? r t contents = none) :
    (∃ e : Ending, (t.perform (run r)).1 = r.result e ∧ e.Follows (compile p r.options)) ∧
      Effect P t (writes r t) (t.perform (run r)).2 := by
  obtain ⟨l, hl, rfl, hfp, hcalls⟩ := perform_load_ok h
  obtain ⟨g, hg, hgfp, hgc, htold⟩ := perform_check_none hfp he
  rw [hcalls] at htold
  rw [run, perform_bind, hl]
  simp only [perform_bind]
  rw [hg]
  simp only [perform_bind]
  generalize hw : t.perform (writeOutput r g.compilation.text) = v
  obtain ⟨w, t'⟩ := v
  have hlist := writeOutput_effect P hw
  have hwrites : writes r t = match (w, t') with
      | (.error _, _) => []
      | (.ok (), t') =>
        (if g.compilation.fault.isSome then [] else stored r t' (entry r contents g.compilation))
          ++ listed r t g.compilation.text := by
    rw [hgc] at hw ⊢
    simp only [writes, h, he, hw, Option.isSome_none, Bool.false_eq_true, if_false]
  rw [hwrites, ← hgc]
  cases w with
  | error f =>
    obtain ⟨e, hres, hend⟩ := perform_write_error htold hw fun _ => nofun
    rw [hres]
    exact ⟨⟨e, rfl, hend⟩, hlist⟩
  | ok u =>
    cases hf : g.compilation.fault with
    | some f =>
      obtain ⟨e, hres, hend⟩ := perform_write_error htold hw fun hn => nomatch hf.symm.trans hn
      rw [hres]
      exact ⟨⟨e, rfl, hend⟩, hlist⟩
    | none =>
      obtain ⟨g', hres, hfp', hc', hcalls'⟩ := perform_write_ok hf hw
      have htold' : g'.Told := by rw [Generated.Told, hcalls', hc', htold]
      obtain ⟨hend, htree⟩ := perform_store (t := t') g' (hfp'.trans hgfp) htold'
      rw [hres, ← hc']
      refine ⟨hend, ?_⟩
      simp only [htree, hc']
      exact hlist.trans (stored_effect P r t' rfl)

/-- **The effect of a job** is to write its files. -/
theorem run_effect (P : Place → Prop) (r : Request) (t : FileTree) :
    Effect P t (writes r t) (t.perform (run r)).2 := by
  cases h : loaded r t with
  | error f =>
    obtain ⟨runs, hr⟩ := run_error h
    simp only [writes, h, hr]
    exact .refl P t
  | ok a =>
    obtain ⟨contents, p⟩ := a
    cases he : fresh? r t contents with
    | none => exact (run_stale P h he).2
    | some e =>
      obtain ⟨runs, hr⟩ := run_fresh h he
      simp only [writes, h, he, hr]
      exact .refl P t

/-- **A job that says that its output is up to date** has found an entry that says so, and
tells the size that the entry holds. -/
theorem run_cached (h : (t.perform (run r)).1.cached = true) :
    ∃ contents p e, loaded r t = .ok (contents, p) ∧ fresh? r t contents = some e ∧
      (t.perform (run r)).1.stats = { instructions := e.words, capacity := e.capacity } ∧
      (t.perform (run r)).1.fault = none ∧ (t.perform (run r)).2 = t := by
  cases hl : loaded r t with
  | error f =>
    obtain ⟨runs, hr⟩ := run_error hl
    rw [hr] at h
    cases h
  | ok a =>
    obtain ⟨contents, p⟩ := a
    cases he : fresh? r t contents with
    | none =>
      obtain ⟨⟨e, hr, hc, -⟩, -⟩ := run_stale (fun _ => True) hl he
      rw [hr] at h
      exact nomatch hc.symm.trans h
    | some e =>
      obtain ⟨runs, hr⟩ := run_fresh hl he
      refine ⟨contents, p, e, rfl, he, ?_⟩
      rw [hr]
      exact ⟨rfl, rfl, rfl⟩

theorem mem_listed {k : Place} {x text : Text} :
    (k, x) ∈ listed r t text ↔ r.output ≠ [] ∧ k = target t.current r.output ∧ x = text := by
  by_cases ho : r.output = [] <;> simp [listed, ho]

theorem eq_of_mem_stored {k : Place} {x : Text} {e : Cache.Entry} (h : (k, x) ∈ stored r t e) :
    x = e.encode := by
  rw [stored] at h
  cases hc : r.cache with
  | none => simp [hc] at h
  | some cache =>
    simp only [hc] at h
    split at h
    · exact (Prod.mk.inj (List.mem_singleton.1 h)).2
    · cases h

/-- The files of a job are its listing and an entry.  There is an entry only if no fault stopped
the compilation, and then the listing is there too. -/
theorem mem_writes {k : Place} {x : Text} (h : (k, x) ∈ writes r t) :
    ∃ contents p, loaded r t = .ok (contents, p) ∧
      (x = (compile p r.options).text ∨
        x = (entry r contents (compile p r.options)).encode ∧ (compile p r.options).fault = none ∧
          (r.output ≠ [] →
            (target t.current r.output, (compile p r.options).text) ∈ writes r t)) := by
  cases hl : loaded r t with
  | error f => simp [writes, hl] at h
  | ok a =>
    obtain ⟨contents, p⟩ := a
    refine ⟨contents, p, rfl, ?_⟩
    rw [writes, hl] at h ⊢
    by_cases he : (fresh? r t contents).isSome
    · simp [he] at h
    simp only [if_neg he] at h ⊢
    generalize t.perform (writeOutput r (compile p r.options).text) = w at h ⊢
    obtain ⟨f | u, t'⟩ := w
    · cases h
    rcases List.mem_append.1 h with h | h
    · by_cases hf : (compile p r.options).fault.isSome
      · simp [hf] at h
      · rw [if_neg hf] at h
        refine .inr ⟨eq_of_mem_stored h, by simpa using hf, fun ho => ?_⟩
        exact List.mem_append_right _ (mem_listed.2 ⟨ho, rfl, rfl⟩)
    · exact .inl (mem_listed.1 h).2.2

end Job

end StumpGen
