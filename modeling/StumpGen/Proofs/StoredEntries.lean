import StumpGen.Proofs.Fingerprint
import StumpGen.Proofs.Independence
import Mathlib.Data.List.Find

/-!
# Entries of a cache over a run

The file of an entry is named after the digest of its output, so entries for different outputs
may come to share a file, and then the latest one takes it.  What a lookup gives is still right:
an entry tells its output, and a lookup does not take it for that of another output.

* `Cache.Puts` : entries are put into a cache one after another, whatever happens to other files.
* `Cache.Puts.get?_entryPlace` : **each file holds the latest of the entries that share it**.
* `Cache.Puts.get_latest` : **a lookup gives the latest entry for its output or none**; if the
  outputs have digests of their own, it gives one exactly if one was put and the output is shorter
  than `2 ^ 32` bytes.
* `Cache.stored_not_found` : longer outputs are stored and not found, and so is every output where
  there is no cache.
-/

namespace StumpGen

namespace Cache

open FileTree StumpGen.Path

/-! ### Files of entries -/

/-- The place of the file with the entry for an output. -/
def entryPlace (c : Cache) (current : Place) (output : Text) : Place :=
  target current (c.entryPath output)

section Places

variable (c : Cache)

theorem exists_entryPath : ∃ d : Route, ∀ output,
    c.entryPath output = (d.child (entryName_proper output)).path := by
  obtain ⟨d, hd⟩ := exists_join c.directory
  exact ⟨d, fun output => hd _ (entryName_proper output)⟩

/-- Outputs that share a file have the same digest. -/
theorem digest_of_entryPlace {current : Place} {a b : Text}
    (h : c.entryPlace current a = c.entryPlace current b) :
    Digest.ofText a = Digest.ofText b := by
  obtain ⟨d, hd⟩ := c.exists_entryPath
  rw [entryPlace, entryPlace, hd, hd, target_child, target_child] at h
  exact digest_of_entryName (List.singleton_inj.1 (List.append_cancel_left h))

theorem entryPath_eq_iff {current : Place} {a b : Text} :
    c.entryPath a = c.entryPath b ↔ c.entryPlace current a = c.entryPlace current b := by
  refine ⟨congrArg (target current), fun h => ?_⟩
  rw [entryPath, entryPath, c.digest_of_entryPlace h]

theorem entryPlace_ne_nil (current : Place) (output : Text) : c.entryPlace current output ≠ [] := by
  obtain ⟨d, hd⟩ := c.exists_entryPath
  rw [entryPlace, hd, target_child]
  simp

end Places

variable {c : Cache} {t t' t₀ : FileTree} {e : Entry} {log : List Entry} {output : Text}

/-- An entry of this version. -/
def Entry.stamped (e : Entry) : Entry := { e with schema := schemaVersion }

/-- **What it is to store an entry**: its file comes to hold it, and nothing else changes. -/
theorem put_eq_ok (h : t.perform (c.put e) = (.ok (), t')) :
    t.place (c.entryPath e.output) = .ok (c.entryPlace t.current e.output) ∧
      t.get? (c.entryPlace t.current e.output) ≠ some .directory ∧
      t' = t.set (c.entryPlace t.current e.output) (.file e.stamped.encode) := by
  have hput : t.perform (c.put e) =
      t.perform (update (·.replace (c.entryPath e.output) e.stamped.encode)) := rfl
  rw [hput, perform_update, replace] at h
  cases hu : t.place (unfinished (c.entryPath e.output)) with
  | error cause => simp [hu] at h
  | ok u =>
    cases hp : t.place (c.entryPath e.output) with
    | error cause => simp [hu, hp] at h
    | ok k =>
      obtain rfl : k = c.entryPlace t.current e.output := place_eq hp
      simp only [hu, hp] at h
      by_cases hd : t.get? (c.entryPlace t.current e.output) = some .directory
      · simp [hd] at h
      · rw [if_neg hd] at h
        exact ⟨rfl, hd, (Prod.mk.inj h).2.symm⟩

/-- A tree where entries can be stored: they have a directory, and no directory stands where one of
them goes. -/
structure Ready (c : Cache) (t : FileTree) : Prop where
  sound : t.Sound
  directory : ∃ d : Route,
    (∀ output, c.entryPath output = (d.child (entryName_proper output)).path) ∧
      t.get? (target t.current d.path) = some .directory
  free : ∀ output, t.get? (c.entryPlace t.current output) ≠ some .directory

/-- **Where entries can be stored**, storing one succeeds, and others can be stored after it. -/
theorem Ready.put (h : Ready c t) (e : Entry) :
    ∃ t', t.perform (c.put e) = (.ok (), t') ∧ Ready c t' := by
  obtain ⟨d, hd, hdir⟩ := h.directory
  have hplace :
      c.entryPlace t.current e.output = target t.current d.path ++ [entryName e.output] := by
    rw [entryPlace, hd, target_child]
  have hfree := h.free e.output
  have hput : t.perform (c.put e) =
      (.ok (), t.set (c.entryPlace t.current e.output) (.file e.stamped.encode)) := by
    rw [hplace] at hfree ⊢
    rw [Cache.put, hd, perform_replace h.sound _ _ hdir, if_neg hfree]
    rfl
  have hne := c.entryPlace_ne_nil t.current e.output
  refine ⟨_, hput, h.sound.set ?_ hfree, ⟨d, hd, ?_⟩, fun output => ?_⟩
  · rw [hplace, List.dropLast_concat, hdir]
  · -- the directory is not what was stored
    have hdne : target t.current d.path ≠ c.entryPlace t.current e.output := by
      rw [hplace]
      simp
    exact (get?_set hne _ _).trans ((if_neg hdne).trans hdir)
  · have hset := get?_set (t := t) hne (.file e.stamped.encode) (c.entryPlace t.current output)
    refine fun hd => ?_
    rw [show (t.set _ _).get? (c.entryPlace (t.set _ _).current output) = _ from hset] at hd
    split at hd
    · cases hd
    · exact h.free output hd

/-! ### Runs -/

/-- Entries are put into a cache one after another, and in between all files but those of entries
are edited.  The entries are listed, the latest first. -/
inductive Puts (c : Cache) (t₀ : FileTree) : List Entry → FileTree → Prop
  /-- Nothing has happened yet. -/
  | start : Puts c t₀ [] t₀
  /-- Other files are edited. -/
  | edit {log : List Entry} {t t' : FileTree} : Puts c t₀ log t → t'.Sound →
      t'.current = t.current →
      (∀ output, t'.get? (c.entryPlace t.current output) =
        t.get? (c.entryPlace t.current output)) →
      Puts c t₀ log t'
  /-- An entry is stored. -/
  | put {log : List Entry} {t t' : FileTree} {e : Entry} : Puts c t₀ log t →
      t.perform (c.put e) = (.ok (), t') → Puts c t₀ (e :: log) t'

/-- The values of an entry's fields are of their types: a digest has 32 bytes, and numbers have 64
bits. -/
structure Entry.Typed (e : Entry) : Prop where
  fingerprint : e.fingerprint.bytes.length = 32
  words : MessagePack.IsWord e.words
  capacity : MessagePack.IsWord e.capacity

theorem Entry.Typed.decode_stamped (h : e.Typed) (hlength : e.output.length < 0x100000000) :
    Entry.decode e.stamped.encode = some e.stamped :=
  decode_encode ⟨show 1 < 0x10000 by decide, hlength, h.fingerprint, h.words, h.capacity⟩

/-- **An output of `2 ^ 32` bytes or more is never found**, whatever the file of its entry holds. -/
theorem length_of_get (h : (t.perform (c.get output)).1 = .ok (some e)) :
    output.length < 0x100000000 := by
  obtain ⟨x, -, hdecode, -, houtput⟩ := get_eq_ok_iff.1 h
  rw [← houtput]
  exact Entry.length_output_of_decode hdecode

namespace Puts

theorem current (h : Puts c t₀ log t) : t.current = t₀.current := by
  induction h with
  | start => rfl
  | edit _ _ hc _ ih => exact hc.trans ih
  | put _ hput ih =>
    obtain ⟨-, -, rfl⟩ := put_eq_ok hput
    exact ih

theorem sound (h : Puts c t₀ log t) (ht : t₀.Sound) : t.Sound := by
  induction h with
  | start => exact ht
  | edit _ hs _ _ _ => exact hs
  | @put log t t' e _ hput ih =>
    obtain ⟨hplace, hdir, rfl⟩ := put_eq_ok hput
    obtain ⟨d, hd⟩ := c.exists_entryPath
    refine ih.set ?_ hdir
    -- the path leads to the place, so there is a directory above it
    rw [hd, ih.place_path] at hplace
    by_contra habove
    rw [entryPlace, hd] at habove
    rw [if_neg habove] at hplace
    cases hplace

/-- **Each file holds the latest of the entries that share it.** -/
theorem get?_entryPlace (h : Puts c t₀ log t) (output : Text) :
    t.get? (c.entryPlace t₀.current output) =
      match log.find? (fun e =>
        c.entryPlace t₀.current e.output = c.entryPlace t₀.current output) with
      | some e => some (.file e.stamped.encode)
      | none => t₀.get? (c.entryPlace t₀.current output) := by
  induction h with
  | start => rfl
  | edit h _ _ hkeep ih =>
    rw [← ih, ← h.current]
    exact hkeep output
  | @put log t t' e h hput ih =>
    obtain ⟨-, -, rfl⟩ := put_eq_ok hput
    rw [h.current, get?_set (c.entryPlace_ne_nil _ _), List.find?_cons]
    by_cases hs : c.entryPlace t₀.current e.output = c.entryPlace t₀.current output
    · rw [if_pos hs.symm, decide_eq_true hs]
    · rw [if_neg (Ne.symm hs), decide_eq_false hs, ih]

/-- An entry that is found is the latest one that was put for its output, unless an entry for
another output that shares its file is too long to be read back. -/
theorem eq_latest (h : Puts c t₀ log t)
    (start : ∀ output x, t₀.get? (c.entryPlace t₀.current output) ≠ some (.file x))
    (typed : ∀ e ∈ log, e.Typed)
    (short : ∀ e ∈ log, e.output ≠ output → c.entryPath e.output = c.entryPath output →
      e.output.length < 0x100000000)
    (hget : (t.perform (c.get output)).1 = .ok (some e)) :
    ∃ e', log.find? (fun e => e.output = output) = some e' ∧ e = e'.stamped := by
  obtain ⟨x, hread, hdecode, -, houtput⟩ := get_eq_ok_iff.1 hget
  obtain ⟨k, hk, hfile⟩ := read_eq_ok.1 hread
  obtain rfl : k = c.entryPlace t₀.current output := by
    rw [place_eq hk, h.current]
    rfl
  rw [h.get?_entryPlace] at hfile
  cases hfind : log.find? (fun e => c.entryPlace t₀.current e.output =
      c.entryPlace t₀.current output) with
  | none =>
    simp only [hfind] at hfile
    exact absurd hfile (start output x)
  | some e' =>
    simp only [hfind, Option.some.injEq, FileTree.Entry.file.injEq] at hfile
    obtain ⟨hshare, newer, older, hlog, hnewer⟩ := List.find?_eq_some_iff_append.1 hfind
    have hmem : e' ∈ log := List.mem_of_find?_eq_some hfind
    have hshort : e'.output.length < 0x100000000 := by
      by_cases heq : e'.output = output
      · rw [heq]
        exact length_of_get hget
      · exact short e' hmem heq (c.entryPath_eq_iff.2 (of_decide_eq_true hshare))
    have he : e = e'.stamped := by
      rw [← hfile, (typed e' hmem).decode_stamped hshort] at hdecode
      exact (Option.some.inj hdecode).symm
    have hout : e'.output = output := by rw [← houtput, he]; rfl
    refine ⟨e', List.find?_eq_some_iff_append.2 ⟨decide_eq_true hout, newer, older, hlog, ?_⟩, he⟩
    -- a newer entry for the output would have taken the file
    intro a ha
    have hne := hnewer a ha
    simp only [Bool.not_eq_true', decide_eq_false_iff_not] at hne ⊢
    exact fun hao => hne (by rw [hao])

/-- The latest entry for an output is found, if no other output that was used has its digest. -/
theorem get_of_find? (h : Puts c t₀ log t) (sound : t₀.Sound)
    (hfind : log.find? (fun e => e.output = output) = some e) (typed : e.Typed)
    (short : e.output.length < 0x100000000)
    (distinct : ∀ a ∈ log, Digest.ofText a.output = Digest.ofText output → a.output = output) :
    (t.perform (c.get output)).1 = .ok (some e.stamped) := by
  have houtput : e.output = output := by simpa using List.find?_some hfind
  have hsame : log.find? (fun e => c.entryPlace t₀.current e.output =
      c.entryPlace t₀.current output) = log.find? (fun e => e.output = output) := by
    refine List.find?_congr fun a ha => decide_eq_decide.2 ⟨fun hp => ?_, fun ho => by rw [ho]⟩
    exact distinct a ha (c.digest_of_entryPlace hp)
  have hfile := h.get?_entryPlace output
  rw [hsame, hfind] at hfile
  have hread : t.read (c.entryPath output) = .ok e.stamped.encode := by
    obtain ⟨d, hd⟩ := c.exists_entryPath
    rw [entryPlace, ← h.current, hd] at hfile
    rw [hd, (h.sound sound).read_path, hfile]
  exact get_eq_ok_iff.2 ⟨_, hread, typed.decode_stamped short, rfl, houtput⟩

/-- **What a lookup gives after a run.**  An entry that is found is the latest one that was put for
its output, in this version, whatever the files of entries share, as long as what shares a file with
the output can be read back.  If the outputs have digests of their own, an entry is found exactly if
one was put and a reader can find the size of the output. -/
theorem get_latest (h : Puts c t₀ log t) (sound : t₀.Sound)
    (start : ∀ output x, t₀.get? (c.entryPlace t₀.current output) ≠ some (.file x))
    (typed : ∀ e ∈ log, e.Typed) (output : Text) :
    ((∀ e ∈ log, e.output ≠ output → c.entryPath e.output = c.entryPath output →
        e.output.length < 0x100000000) →
      ∀ e, (t.perform (c.get output)).1 = .ok (some e) →
        ∃ e', log.find? (fun e => e.output = output) = some e' ∧ e = e'.stamped) ∧
    (Set.InjOn Digest.ofText {x | x = output ∨ ∃ e ∈ log, e.output = x} →
      ((∃ e, (t.perform (c.get output)).1 = .ok (some e)) ↔
        (∃ e ∈ log, e.output = output) ∧ output.length < 0x100000000)) := by
  refine ⟨fun short e => h.eq_latest start typed short, fun distinct => ?_⟩
  have hsame : ∀ a ∈ log, Digest.ofText a.output = Digest.ofText output → a.output = output := by
    intro a ha hd
    exact distinct (.inr ⟨a, ha, rfl⟩) (.inl rfl) hd
  constructor
  · rintro ⟨e, he⟩
    -- no other output shares the file
    have hshort : ∀ a ∈ log, a.output ≠ output → c.entryPath a.output = c.entryPath output →
        a.output.length < 0x100000000 := by
      intro a ha hne hp
      have hplace : c.entryPlace t₀.current a.output = c.entryPlace t₀.current output :=
        congrArg (target t₀.current) hp
      exact absurd (hsame a ha (c.digest_of_entryPlace hplace)) hne
    obtain ⟨e', hfind, -⟩ := h.eq_latest start typed hshort he
    exact ⟨⟨e', List.mem_of_find?_eq_some hfind, by simpa using List.find?_some hfind⟩,
      length_of_get he⟩
  · rintro ⟨⟨a, ha, hao⟩, hlength⟩
    cases hfind : log.find? (fun e => e.output = output) with
    | none => exact absurd hao (by simpa using List.find?_eq_none.1 hfind a ha)
    | some e =>
      have houtput : e.output = output := by simpa using List.find?_some hfind
      exact ⟨e.stamped, h.get_of_find? sound hfind (typed e (List.mem_of_find?_eq_some hfind))
        (houtput ▸ hlength) hsame⟩

end Puts

/-! ### An entry that is put again

Two entries are put for one output, the second one with another size, and one in between for
another output. -/

/-- A tree with an output and a directory for a cache. -/
def shelf : FileTree := { entries := [(["c"], .directory), (["o"], .file [])] }

/-- The way to the directory. -/
def shelfRoute : Route :=
  ⟨false, 0, ["c"], by rintro ⟨⟩,
    List.forall_mem_singleton.2 ⟨by decide, by decide, by decide, by decide⟩⟩

theorem shelf_entryPath (output : Text) :
    entryPath ⟨"c"⟩ output = (shelfRoute.child (entryName_proper output)).path :=
  entryPath_eq (c := ⟨"c"⟩) (d := shelfRoute) rfl output

theorem shelf_entryPlace (output : Text) :
    entryPlace ⟨"c"⟩ shelf.current output = [Text.ofString "c", entryName output] := by
  rw [entryPlace, shelf_entryPath, target_child]
  rfl

theorem shelf_empty (output : Text) :
    shelf.get? (entryPlace ⟨"c"⟩ shelf.current output) = none := by
  have hne (n : Text) : ([Text.ofString "c", entryName output] == [n]) = false := by simp
  rw [shelf_entryPlace, FileTree.get?, shelf, List.lookup_cons, hne, List.lookup_cons, hne]
  simp

theorem shelf_ready : Ready ⟨"c"⟩ shelf where
  sound := by decide
  directory := ⟨shelfRoute, shelf_entryPath, rfl⟩
  free output := by simp [shelf_empty]

/-- An entry of no version in particular. -/
def shelved (output : Text) (words : Int) : Entry :=
  { schema := 7, output, words, capacity := -129 }

/-- The entries, the latest first. -/
def shelvedLog : List Entry := [shelved "o" 70000, shelved "p" 2, shelved "o" 1]

/-- The latest entry for an output is found though others were put before and after it, and none is
found for an output that has none. -/
theorem get_latest_shelvedLog : ∃ t, Puts ⟨"c"⟩ shelf shelvedLog t ∧
    (t.perform (get ⟨"c"⟩ "o")).1 = .ok (some (shelved "o" 70000).stamped) ∧
      ∀ e, (t.perform (get ⟨"c"⟩ "q")).1 ≠ .ok (some e) := by
  obtain ⟨t₁, h₁, hr⟩ := shelf_ready.put (shelved "o" 1)
  obtain ⟨t₂, h₂, hr⟩ := hr.put (shelved "p" 2)
  obtain ⟨t, h₃, -⟩ := hr.put (shelved "o" 70000)
  have run : Puts ⟨"c"⟩ shelf shelvedLog t := .put (.put (.put .start h₁) h₂) h₃
  have start (output x : Text) :
      shelf.get? (entryPlace ⟨"c"⟩ shelf.current output) ≠ some (.file x) := by
    simp [shelf_empty]
  have typed : ∀ e ∈ shelvedLog, e.Typed := by
    have small (output : Text) {words : Int} (hw : 0 ≤ words ∧ words ≤ 70000) :
        (shelved output words).Typed := by
      refine ⟨rfl, ⟨?_, ?_⟩, ⟨?_, ?_⟩⟩ <;> simp only [shelved] <;> omega
    simpa [shelvedLog] using ⟨small "o" (by decide), small "p" (by decide), small "o" (by decide)⟩
  have short : ∀ e ∈ shelvedLog, e.output.length < 0x100000000 := by decide
  have distinct : Set.InjOn Digest.ofText {x | x = "o" ∨ ∃ e ∈ shelvedLog, e.output = x} := by
    have hne : Digest.ofText "o" ≠ Digest.ofText "p" := by decide +kernel
    have hcases {x : Text} (hx : x = "o" ∨ ∃ e ∈ shelvedLog, e.output = x) :
        x = "o" ∨ x = "p" := by
      simp only [shelvedLog, shelved, List.exists_mem_cons_iff, List.not_mem_nil] at hx
      grind
    intro x hx y hy he
    rcases hcases hx with rfl | rfl <;> rcases hcases hy with rfl | rfl
    · rfl
    · exact absurd he hne
    · exact absurd he.symm hne
    · rfl
  obtain ⟨latest, found⟩ := run.get_latest shelf_ready.sound start typed "o"
  obtain ⟨e, he⟩ := (found distinct).2 ⟨⟨_, List.mem_cons_self, rfl⟩, by decide⟩
  refine ⟨t, run, ?_, ?_⟩
  · obtain ⟨e', hfind, rfl⟩ := latest (fun e he _ _ => short e he) e he
    obtain rfl : shelved "o" 70000 = e' := Option.some.inj hfind
    exact he
  · intro e he
    obtain ⟨e', hfind, -⟩ := (run.get_latest shelf_ready.sound start typed "q").1
      (fun e he _ _ => short e he) e he
    cases hfind

/-- An output of `2 ^ 32` bytes. -/
def vast : Text := List.replicate 0x100000000 0x61

/-- **An entry that was put need not be found.**  It is not if its output has `2 ^ 32` bytes, though
no other output was used.  It is not either where there is no cache. -/
theorem stored_not_found :
    (∃ t, Puts ⟨"c"⟩ shelf [shelved vast 1] t ∧
      Set.InjOn Digest.ofText {x | x = vast ∨ ∃ e ∈ [shelved vast 1], e.output = x} ∧
      ∀ e, (t.perform (lookIn (some ⟨"c"⟩) vast)).1 ≠ .ok (some e)) ∧
    (shelf.perform (storeIn none (shelved "o" 1))).1 = .ok () ∧
      ∀ e, ((shelf.perform (storeIn none (shelved "o" 1))).2.perform (lookIn none "o")).1 ≠
        .ok (some e) := by
  obtain ⟨t, hput, -⟩ := shelf_ready.put (shelved vast 1)
  refine ⟨⟨t, .put .start hput, ?_, ?_⟩, rfl, ?_⟩
  · have honly {x : Text} (hx : x = vast ∨ ∃ e ∈ [shelved vast 1], e.output = x) : x = vast := by
      rcases hx with rfl | ⟨e, he, rfl⟩
      · rfl
      · rw [List.mem_singleton.1 he]
        rfl
    intro x hx y hy _
    rw [honly hx, honly hy]
  · intro e he
    have hlength : vast.length < 0x100000000 := length_of_get he
    rw [vast, List.length_replicate] at hlength
    exact Nat.lt_irrefl _ hlength
  · rintro e ⟨⟩

end Cache

end StumpGen
