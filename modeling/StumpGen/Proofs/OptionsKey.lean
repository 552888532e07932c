import StumpGen.Proofs.StoredEntries

/-!
# Options that a fingerprint does not tell apart

The options of a job enter its fingerprint as one text, in which the origin and the entry stand
one after the other with a mark between them.  Both may hold that mark themselves.  So the text
does not always tell where the origin ends: what stands between two marks may belong to the origin
or to the entry (`Options.Shifted`).  That is the only way in which options that differ read the
same, and a job then finds its output up to date though it was made with other options.

* `Options.ReadSame` : the options are the same, or the same but for a shift.
* `Job.Request.optionsKey_eq_iff` : **options have the same text exactly if they read the same**.
* `Options.readSame_iff_of_unmarked` : if no origin holds the mark, the text tells the options.
* `Job.Request.fresh_iff_readSame` : **an entry for some options is fresh for others exactly if
  both read the same** and the inputs are the same.
-/

namespace StumpGen

namespace Options

/-- The mark between the origin and the entry. -/
def entryMark : Text := " entry="

/-- The origin goes further than that of other options, past a mark, and the entry of the others
starts earlier by as much. -/
def Shifted (o o' : Options) : Prop :=
  ∃ m, o.org = o'.org ++ (entryMark ++ m) ∧ o'.entry = m ++ (entryMark ++ o.entry)

/-- The same options, or the same but for a shift. -/
def ReadSame (o o' : Options) : Prop :=
  o.capacity = o'.capacity ∧
    (o.org = o'.org ∧ o.entry = o'.entry ∨ Shifted o o' ∨ Shifted o' o)

/-- Origin and entry with the mark between them. -/
def marked (o : Options) : Text := o.org ++ (entryMark ++ o.entry)

variable {o o' : Options}

/-- Origin and entry are told apart up to a shift. -/
theorem marked_eq_iff : o.marked = o'.marked ↔
    o.org = o'.org ∧ o.entry = o'.entry ∨ Shifted o o' ∨ Shifted o' o :=
  Text.append_separator_eq_iff (x := 32) (s := "entry=") (by decide)

instance (o o' : Options) : Decidable (ReadSame o o') :=
  decidable_of_iff (o.capacity = o'.capacity ∧ o.marked = o'.marked)
    (by rw [ReadSame, marked_eq_iff])

/-- **Options whose origins do not hold the mark** read the same only if they are the same. -/
theorem readSame_iff_of_unmarked (h : ¬ entryMark <:+: o.org) (h' : ¬ entryMark <:+: o'.org) :
    ReadSame o o' ↔ o = o' := by
  have unmarked {o o' : Options} (h : ¬ entryMark <:+: o.org) : ¬ Shifted o o' := by
    rintro ⟨m, horg, -⟩
    exact h ⟨o'.org, m, by simp [horg]⟩
  constructor
  · rintro ⟨hcapacity, ⟨horg, hentry⟩ | hs | hs⟩
    · cases o
      cases o'
      simp_all
    · exact absurd hs (unmarked h)
    · exact absurd hs (unmarked h')
  · rintro rfl
    exact ⟨rfl, .inl ⟨rfl, rfl⟩⟩

end Options

/-- A lookup that finds an entry tells whether it is fresh, if the output exists. -/
theorem Cache.fresh_of_get {t : FileTree} {c : Cache} {output : Text} {e : Cache.Entry}
    {kind : FileKind} (hget : (t.perform (c.get output)).1 = .ok (some e))
    (hkind : t.kind output = .ok kind) (fp : Digest) :
    (t.perform (c.fresh output fp)).1 = if e.fingerprint = fp then some e else none := by
  have hkeep : (t.perform (c.get output)).2 = t := by rw [Cache.perform_get]
  rw [Cache.fresh, FileTree.perform_bind, hkeep, hget]
  by_cases hfp : e.fingerprint = fp
  · simp only [if_pos hfp, FileTree.perform_bind, FileTree.perform_kind, hkind]
    rfl
  · simp only [if_neg hfp]
    rfl

namespace Job.Request

open FileTree Options

variable {r s : Request}

/-- **Options have the same text** exactly if they read the same. -/
theorem optionsKey_eq_iff : r.optionsKey = s.optionsKey ↔ ReadSame r.options s.options := by
  have hkey (q : Request) : q.optionsKey =
      "org=" ++ (q.options.marked ++ (" capacity=" ++ Text.ofInt q.options.capacity)) := by
    simp only [optionsKey, marked, entryMark, List.append_assoc]
  rw [ReadSame, ← marked_eq_iff]
  constructor
  · intro h
    have hcapacity := capacity_of_optionsKey h
    rw [hkey, hkey, hcapacity] at h
    exact ⟨hcapacity, List.append_cancel_right (List.append_cancel_left h)⟩
  · rintro ⟨hcapacity, hmarked⟩
    rw [hkey, hkey, hcapacity, hmarked]

theorem fingerprint_eq_iff {a b : Text}
    (collisions : Set.InjOn Digest.ofText {x | x ∈ r.hashed a ++ s.hashed b}) :
    r.fingerprint a = s.fingerprint b ↔ a = b ∧ r.optionsKey = s.optionsKey := by
  constructor
  · exact fingerprint_injOn collisions (fun _ => List.mem_append_left _)
      fun _ => List.mem_append_right _
  · rintro ⟨rfl, hkey⟩
    rw [fingerprint, fingerprint, hkey]

/-- **What the fingerprint tells of the options.**  Options have the same text exactly if they read
the same.  So an entry that the cache holds for one job is fresh for another one exactly if the
inputs are the same and the options read the same, as long as no two of the texts that are hashed
share a digest. -/
theorem fresh_iff_readSame (r s : Request) :
    (r.optionsKey = s.optionsKey ↔ ReadSame r.options s.options) ∧
    ∀ (t : FileTree) (c : Cache) (output a b : Text) (e : Cache.Entry) (kind : FileKind),
      (t.perform (c.get output)).1 = .ok (some e) → e.fingerprint = r.fingerprint a →
      t.kind output = .ok kind →
      Set.InjOn Digest.ofText {x | x ∈ r.hashed a ++ s.hashed b} →
      (t.perform (c.fresh output (s.fingerprint b))).1 =
        if a = b ∧ ReadSame r.options s.options then some e else none := by
  refine ⟨optionsKey_eq_iff, fun t c output a b e kind hget hfp hkind collisions => ?_⟩
  rw [Cache.fresh_of_get hget hkind, hfp]
  refine if_congr ?_ rfl rfl
  rw [fingerprint_eq_iff collisions, optionsKey_eq_iff]

end Job.Request

/-! ### An output that was made with another origin

The origin of one job goes on with what is the start of the entry of the other. -/

/-- A job whose origin holds the mark. -/
def longOrigin : Job.Request :=
  { input := "a.mp", output := "o", options := { org := "0 entry=x", entry := "main" } }

/-- A job whose entry holds the mark. -/
def longEntry : Job.Request :=
  { input := "a.mp", output := "o", options := { org := "0", entry := "x entry=main" } }

/-- The entry of the first job, for an empty program. -/
def longOriginEntry : Cache.Entry :=
  { output := "o", fingerprint := longOrigin.fingerprint [0x80], words := 8, capacity := 8000 }

theorem longOrigin_shifted : Options.Shifted longOrigin.options longEntry.options :=
  ⟨"x", by decide, by decide⟩

theorem longOrigin_collisions :
    Set.InjOn Digest.ofText {x | x ∈ longOrigin.hashed [0x80] ++ longEntry.hashed [0x80]} := by
  have hdistinct : ((longOrigin.hashed [0x80]).map Digest.ofText).Nodup := by decide +kernel
  have hkey : longEntry.optionsKey = longOrigin.optionsKey :=
    Job.Request.optionsKey_eq_iff.2 ⟨rfl, .inr (.inr longOrigin_shifted)⟩
  have hsame : longEntry.hashed [0x80] = longOrigin.hashed [0x80] := by
    rw [Job.Request.hashed, Job.Request.hashed, hkey]
  intro x hx y hy he
  rw [hsame, Set.mem_ofPred_eq, List.mem_append, or_self] at hx hy
  exact List.inj_on_of_nodup_map hdistinct hx hy he

/-- The entry of one job is fresh for the other, though their options differ. -/
theorem fresh_iff_readSame_longOrigin : longOrigin.options ≠ longEntry.options ∧
    ∃ t, Cache.Puts ⟨"c"⟩ Cache.shelf [longOriginEntry] t ∧
      (t.perform (Cache.fresh ⟨"c"⟩ "o" (longEntry.fingerprint [0x80]))).1 =
        some longOriginEntry.stamped := by
  obtain ⟨t, hput, -⟩ := Cache.shelf_ready.put longOriginEntry
  have run : Cache.Puts ⟨"c"⟩ Cache.shelf [longOriginEntry] t := .put .start hput
  have typed : longOriginEntry.Typed :=
    ⟨Digest.length_bytes_ofText _, ⟨by decide, by decide⟩, ⟨by decide, by decide⟩⟩
  have hget : (t.perform (Cache.get ⟨"c"⟩ "o")).1 = .ok (some longOriginEntry.stamped) :=
    run.get_of_find? Cache.shelf_ready.sound rfl typed (by decide) (by simp [longOriginEntry])
  have hkind : t.kind "o" = .ok .file := by
    obtain ⟨-, -, rfl⟩ := Cache.put_eq_ok hput
    have hplace (k : FileTree.Place) (x : FileTree.Entry) :
        (Cache.shelf.set k x).place "o" = .ok [Text.ofString "o"] := rfl
    have hne : [Text.ofString "o"] ≠ Cache.entryPlace ⟨"c"⟩ Cache.shelf.current "o" := by
      simp [Cache.shelf_entryPlace]
    have hfile : Cache.shelf.get? [Text.ofString "o"] = some (.file []) := rfl
    rw [FileTree.kind, hplace]
    simp only [FileTree.get?_set (Cache.entryPlace_ne_nil _ _ _), longOriginEntry, if_neg hne,
      hfile]
  refine ⟨by decide, t, run, ?_⟩
  rw [(Job.Request.fresh_iff_readSame longOrigin longEntry).2 t _ _ _ _ _ _ hget rfl hkind
    longOrigin_collisions]
  exact if_pos ⟨rfl, rfl, .inr (.inl longOrigin_shifted)⟩

end StumpGen
