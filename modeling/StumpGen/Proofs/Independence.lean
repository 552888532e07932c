import StumpGen.Proofs.Placement
import StumpGen.Text.Numeral

/-!
# What a job depends on

A job depends on its files alone: in two trees that have the same at its input, its output and
its entry in the cache, and the same files on the way to them, each of its steps gives the same
and changes both trees in the same way.

* `FileTree.Echoes` : an action gives the same in two trees and makes the same changes.
* `Job.Request.Touches` : what a job may put where.
* `Job.Request.SeesSame` : two trees show a job the same.
* `Job.load_echoes`, `Job.check_echoes`, `Job.write_echoes`, `Job.store_echoes` : **each step of a
  job** echoes in a tree that shows it the same.
-/

namespace StumpGen

namespace FileTree

open StumpGen.Path

variable {α β : Type} {F : Place → Entry → Prop} {t t' u u' : FileTree} {k : Place}

/-! ### The same changes in two trees -/

/-- Two trees change in the same way.  At each place both stay as they are, or both come to hold
the same, which is something that may be there. -/
structure Parallel (F : Place → Entry → Prop) (t t' u u' : FileTree) : Prop where
  left : Extends t u
  right : Extends t' u'
  change : ∀ k, (u.get? k = t.get? k ∧ u'.get? k = t'.get? k) ∨
    ∃ e, F k e ∧ u.get? k = some e ∧ u'.get? k = some e

namespace Parallel

theorem refl (F : Place → Entry → Prop) (t t' : FileTree) : Parallel F t t' t t' :=
  ⟨.refl t, .refl t', fun _ => .inl ⟨rfl, rfl⟩⟩

theorem trans {v v' : FileTree} (h : Parallel F t t' u u') (h' : Parallel F u u' v v') :
    Parallel F t t' v v' := by
  refine ⟨h.left.trans h'.left, h.right.trans h'.right, fun k => ?_⟩
  rcases h'.change k with ⟨hv, hv'⟩ | hchange
  · rw [hv, hv']
    exact h.change k
  · exact .inr hchange

/-- A file is put into a directory of both trees. -/
theorem set {x : Text} (hF : F k (.file x)) (hparent : t.get? k.dropLast = some .directory)
    (hparent' : t'.get? k.dropLast = some .directory) (hk : t.get? k ≠ some .directory)
    (hk' : t'.get? k ≠ some .directory) :
    Parallel F t t' (t.set k (.file x)) (t'.set k (.file x)) := by
  have hne : k ≠ [] := by
    rintro rfl
    exact hk rfl
  refine ⟨.set hparent hk (by rintro ⟨⟩), .set hparent' hk' (by rintro ⟨⟩), fun j => ?_⟩
  rw [get?_set hne, get?_set hne]
  by_cases hj : j = k
  · rw [if_pos hj, if_pos hj, hj]
    exact .inr ⟨.file x, hF, rfl, rfl⟩
  · rw [if_neg hj, if_neg hj]
    exact .inl ⟨rfl, rfl⟩

end Parallel

/-- An action gives the same in two trees, and changes both in the same way. -/
def Echoes (F : Place → Entry → Prop) (t t' : FileTree) (act : StateM FileTree α) : Prop :=
  (t.perform act).1 = (t'.perform act).1 ∧
    Parallel F t t' (t.perform act).2 (t'.perform act).2

namespace Echoes

theorem pure (F : Place → Entry → Prop) (t t' : FileTree) (a : α) :
    Echoes F t t' (Pure.pure a) := ⟨rfl, .refl F t t'⟩

theorem bind {x : StateM FileTree α} {f : α → StateM FileTree β} (h : Echoes F t t' x)
    (hf : Echoes F (t.perform x).2 (t'.perform x).2 (f (t.perform x).1)) :
    Echoes F t t' (x >>= f) := by
  rw [Echoes, perform_bind, perform_bind, ← h.1]
  exact ⟨hf.1, h.2.trans hf.2⟩

/-- What follows an action gives the same for every value. -/
theorem bind_pure {x : StateM FileTree α} {f : α → StateM FileTree β} (h : Echoes F t t' x)
    (hf : ∀ a, ∃ b, f a = Pure.pure b) : Echoes F t t' (x >>= f) := by
  refine h.bind ?_
  obtain ⟨b, hb⟩ := hf (t.perform x).1
  rw [hb]
  exact .pure F _ _ b

/-- An operation that only looks. -/
theorem read {p : Text} (h : t.read p = t'.read p) :
    Echoes F t t' (Host.read p : StateM FileTree _) := ⟨h, .refl F t t'⟩

theorem kind {p : Text} (h : t.kind p = t'.kind p) :
    Echoes F t t' (Host.kind p : StateM FileTree _) := ⟨h, .refl F t t'⟩

/-- An action that puts a file into a directory, unless there is a directory in its place. -/
theorem put {act : StateM FileTree α} {a b : α} {x : Text} (hF : F k (.file x))
    (hparent : t.get? k.dropLast = some .directory)
    (hparent' : t'.get? k.dropLast = some .directory) (hget : t.get? k = t'.get? k)
    (h : t.perform act = if t.get? k = some .directory then (a, t) else (b, t.set k (.file x)))
    (h' : t'.perform act =
      if t'.get? k = some .directory then (a, t') else (b, t'.set k (.file x))) :
    Echoes F t t' act := by
  rw [Echoes, h, h', ← hget]
  by_cases hk : t.get? k = some .directory
  · rw [if_pos hk, if_pos hk]
    exact ⟨rfl, .refl F t t'⟩
  · rw [if_neg hk, if_neg hk]
    exact ⟨rfl, .set hF hparent hparent' hk (hget ▸ hk)⟩

end Echoes

/-! ### Files that are written -/

theorem perform_write (ht : t.Sound) {r : Route} (x : Text)
    (hparent : t.get? (target t.current r.path).dropLast = some .directory) :
    t.perform (Host.write r.path x) =
      if t.get? (target t.current r.path) = some .directory
      then (.error ⟨"open", r.path, .isDirectory⟩, t)
      else (.ok (), t.set (target t.current r.path) (.file x)) := by
  have hact : (Host.write r.path x : StateM FileTree _) = update (·.write r.path x) := rfl
  rw [hact, perform_update, write, ht.place_of_above hparent]
  simp only
  split_ifs <;> rfl

/-- The unfinished file next to a place is in the same directory. -/
theorem unfinished_child (r : Route) {n : Text} (hn : IsProper n) :
    ∃ hu : IsProper "tmp-0", unfinished (r.child hn).path = (r.child hu).path := by
  have hu : IsProper "tmp-0" := ⟨by decide, by decide, by decide, by decide⟩
  refine ⟨hu, ?_⟩
  rw [unfinished, r.directory_child, r.join_child hu]

theorem perform_replace (ht : t.Sound) {r : Route} {n : Text} (hn : IsProper n) (x : Text)
    (hparent : t.get? (target t.current r.path) = some .directory) :
    t.perform (Host.replace (r.child hn).path x) =
      if t.get? (target t.current r.path ++ [n]) = some .directory
      then (.error ⟨"rename", unfinished (r.child hn).path ++ " " ++ (r.child hn).path, .taken⟩, t)
      else (.ok (), t.set (target t.current r.path ++ [n]) (.file x)) := by
  have hact : (Host.replace (r.child hn).path x : StateM FileTree _)
      = update (·.replace (r.child hn).path x) := rfl
  obtain ⟨hu, hunfinished⟩ := unfinished_child r hn
  have hplace {m : Text} (hm : IsProper m) :
      t.place (r.child hm).path = .ok (target t.current r.path ++ [m]) := by
    have := ht.place_of_above (r := r.child hm)
    rw [target_child, List.dropLast_concat] at this
    exact this hparent
  rw [hact, perform_update, replace, hunfinished, hplace hu, hplace hn]
  simp only
  split_ifs <;> rfl

namespace Echoes

variable (ht : t.Sound) (ht' : t'.Sound) (hcurrent : t'.current = t.current)

include ht ht' hcurrent

theorem write {r : Route} {x : Text} (hF : F (target t.current r.path) (.file x))
    (hparent : t.get? (target t.current r.path).dropLast = some .directory)
    (hparent' : t'.get? (target t.current r.path).dropLast = some .directory)
    (hget : t.get? (target t.current r.path) = t'.get? (target t.current r.path)) :
    Echoes F t t' (Host.write r.path x : StateM FileTree _) := by
  have hwrite' := perform_write ht' (r := r) x
  rw [hcurrent] at hwrite'
  exact .put hF hparent hparent' hget (perform_write ht x hparent) (hwrite' hparent')

theorem replace {r : Route} {n : Text} (hn : IsProper n) {x : Text}
    (hF : F (target t.current r.path ++ [n]) (.file x))
    (hparent : t.get? (target t.current r.path) = some .directory)
    (hparent' : t'.get? (target t.current r.path) = some .directory)
    (hget : t.get? (target t.current r.path ++ [n]) = t'.get? (target t.current r.path ++ [n])) :
    Echoes F t t' (Host.replace (r.child hn).path x : StateM FileTree _) := by
  have hreplace' := perform_replace ht' (r := r) hn x
  rw [hcurrent] at hreplace'
  refine .put hF ?_ ?_ hget (perform_replace ht hn x hparent) (hreplace' hparent')
  · rw [List.dropLast_concat, hparent]
  · rw [List.dropLast_concat, hparent']

/-- Directories are made in both trees, or the same file is in the way in both. -/
theorem makeDirectories {d : Route}
    (hF : ∀ j, j <+: target t.current d.path → F j .directory)
    (hfile : ∀ j, j <+: target t.current d.path → t.isFile j = t'.isFile j) :
    Echoes F t t' (Host.makeDirectories d.path : StateM FileTree _) := by
  rcases isFile_cases ht d with hfree | ⟨m, hf⟩
  · have hfree' : ∀ j, j <+: target t'.current d.path → t'.isFile j = false := by
      intro j hj
      rw [hcurrent] at hj
      rw [← hfile j hj, hfree j hj]
    obtain ⟨u, hu, hmade⟩ := makeDirectories_ok ht d hfree
    obtain ⟨u', hu', hmade'⟩ := makeDirectories_ok ht' d hfree'
    rw [hcurrent] at hmade'
    rw [Echoes, hu, hu']
    refine ⟨rfl, hmade.grown, hmade'.grown, fun j => ?_⟩
    rw [hmade.get?, hmade'.get?]
    by_cases hj : j <+: target t.current d.path
    · rw [if_pos hj, if_pos hj]
      exact .inr ⟨.directory, hF j hj, rfl, rfl⟩
    · rw [if_neg hj, if_neg hj]
      exact .inl ⟨rfl, rfl⟩
  · have hf' : t'.isFile (target t'.current (d.upTo m).path) = true := by
      rw [hcurrent, ← hfile _ (target_upTo_above d m t.current), hf]
    rw [Echoes, makeDirectories_error ht d hf, makeDirectories_error ht' d hf']
    exact ⟨rfl, .refl F t t'⟩

end Echoes

end FileTree

/-! ### Entries of the cache -/

namespace Text

theorem hexByte_length (b : UInt8) : (hexByte b).length = 2 := by
  have h : ∀ i : Fin 256, (hexByte (UInt8.ofNat i)).length = 2 := by decide +kernel
  have hb := h ⟨b.toNat, b.toNat_lt⟩
  rwa [UInt8.ofNat_toNat] at hb

theorem hexByte_injective : Function.Injective hexByte := by
  -- the number that the digits stand for is the byte
  have h : ∀ i : Fin 256, Numeral.readDigits 16 0 (hexByte (UInt8.ofNat i)) = .ok i.val := by
    decide +kernel
  intro b c hbc
  have hb := h ⟨b.toNat, b.toNat_lt⟩
  have hc := h ⟨c.toNat, c.toNat_lt⟩
  rw [UInt8.ofNat_toNat] at hb hc
  rw [hbc, hc] at hb
  exact UInt8.toNat_inj.1 (Except.ok.inj hb).symm

theorem hexBytes_injective : Function.Injective hexBytes := by
  intro s
  induction s with
  | nil =>
    intro t h
    cases t with
    | nil => rfl
    | cons c t =>
      have := congrArg List.length h
      simp only [hexBytes, List.flatMap_nil, List.flatMap_cons, List.length_append, List.length_nil,
        hexByte_length] at this
      omega
  | cons b s ih =>
    intro t h
    cases t with
    | nil =>
      have := congrArg List.length h
      simp [hexBytes, hexByte_length] at this
    | cons c t =>
      have hlength : (hexByte b).length = (hexByte c).length := by
        rw [hexByte_length, hexByte_length]
      obtain ⟨hbc, hst⟩ := List.append_inj h hlength
      rw [hexByte_injective hbc, ih hst]

theorem slash_notMem_hexBytes (t : Text) : Path.slash ∉ hexBytes t := by
  have h : ∀ i : Fin 256, Path.slash ∉ hexByte (UInt8.ofNat i) := by decide +kernel
  intro hmem
  obtain ⟨b, -, hb⟩ := List.mem_flatMap.1 hmem
  refine h ⟨b.toNat, b.toNat_lt⟩ ?_
  rwa [UInt8.ofNat_toNat]

end Text

namespace Cache

open StumpGen.Path

/-- The name of the file with the entry for an output. -/
def entryName (output : Text) : Text := (Digest.ofText output).hex ++ ".mp"

theorem entryName_proper (output : Text) : IsProper (entryName output) := by
  have hlong : 3 ≤ (entryName output).length := by
    rw [entryName, List.length_append]
    exact Nat.le_add_left 3 _
  -- the names that lead nowhere else are shorter
  have hne {n : Text} (hn : n.length < 3) : entryName output ≠ n := by
    rintro rfl
    omega
  refine ⟨hne (by decide), hne (by decide), hne (by decide), ?_⟩
  rw [entryName, List.mem_append, not_or]
  exact ⟨Text.slash_notMem_hexBytes _, by decide⟩

theorem digest_of_entryName {a b : Text} (h : entryName a = entryName b) :
    Digest.ofText a = Digest.ofText b := by
  have hhex := Text.hexBytes_injective (List.append_cancel_right h)
  exact congrArg Digest.mk hhex

theorem entryPath_eq {c : Cache} {d : Route} (hd : d.path = c.directory) (output : Text) :
    c.entryPath output = (d.child (entryName_proper output)).path := by
  rw [entryPath, ← hd, ← d.join_child]
  rfl

end Cache

namespace Job

open FileTree StumpGen.Path

/-! ### The steps of a job -/

namespace Request

/-- The paths of a request are the shortest ones. -/
structure Tidy (r : Request) : Prop where
  input : ∃ i : Route, i.path = r.input
  output : ∃ o : Route, o.path = r.output
  cache : ∀ c, r.cache = some c → ∃ d : Route, d.path = c.directory

/-- What a job may put where: files at its output and its entry, and directories around its
output. -/
def Touches (r : Request) (current k : Place) : FileTree.Entry → Prop
  | .file _ => k = target current r.output ∨
    ∃ c, r.cache = some c ∧ k = target current (c.entryPath r.output)
  | .directory => k <+: target current r.output ∧ k ≠ target current r.output

/-- A tree for a job: a sound one that has the directory of the cache. -/
structure Ready (r : Request) (t : FileTree) : Prop where
  sound : t.Sound
  cache : ∀ c, r.cache = some c → t.get? (target t.current c.directory) = some .directory

/-- Two trees show a job the same. -/
structure SeesSame (r : Request) (t t' : FileTree) : Prop where
  current : t'.current = t.current
  input : SameWay t t' (target t.current r.input)
  output : SameWay t t' (target t.current r.output)
  entry : ∀ c, r.cache = some c → SameWay t t' (target t.current (c.entryPath r.output))

end Request

theorem timed_echoes {α : Type} {F : Place → FileTree.Entry → Prop} {t t' : FileTree}
    (name : Text) {act : StateM FileTree (Except Fault α)} (h : Echoes F t t' act) :
    Echoes F t t' (timed name act) := by
  have hclock (t t' : FileTree) : Echoes F t t' (Host.clock : StateM FileTree Nat) :=
    .pure F t t' 0
  exact (hclock t t').bind (h.bind ((hclock _ _).bind_pure fun _ => ⟨_, rfl⟩))

section Echoes

variable {r : Request} {t t' : FileTree} (hr : r.Tidy) (ht : r.Ready t) (ht' : r.Ready t')
  (hs : r.SeesSame t t')

include hr ht ht' hs

theorem load_echoes : Echoes (r.Touches t.current) t t' (load r) := by
  obtain ⟨i, hi⟩ := hr.input
  have hread : t.read r.input = t'.read r.input := by
    have := hs.input
    rw [← hi] at this ⊢
    exact this.read ht.sound ht'.sound hs.current
  have hinput : Echoes (r.Touches t.current) t t' (loadInput r.input : StateM FileTree _) := by
    rw [loadInput]
    cases Document.Format.ofPath r.input with
    | error f => exact .pure _ t t' _
    | ok format =>
      refine (Echoes.read hread).bind_pure fun found => ?_
      cases found <;> exact ⟨_, rfl⟩
  refine (timed_echoes "load" hinput).bind_pure fun found => ?_
  obtain ⟨found, run⟩ := found
  cases found <;> exact ⟨_, rfl⟩

theorem fresh_echoes {c : Cache} (hc : r.cache = some c) (fp : Digest) :
    Echoes (r.Touches t.current) t t' (c.fresh r.output fp : StateM FileTree _) := by
  obtain ⟨o, ho⟩ := hr.output
  obtain ⟨d, hd⟩ := hr.cache c hc
  have hread : t.read (c.entryPath r.output) = t'.read (c.entryPath r.output) := by
    have := hs.entry c hc
    rw [Cache.entryPath_eq hd] at this ⊢
    exact this.read ht.sound ht'.sound hs.current
  have hkind : t.kind r.output = t'.kind r.output := by
    have := hs.output
    rw [← ho] at this ⊢
    exact this.kind ht.sound ht'.sound hs.current
  have hget : Echoes (r.Touches t.current) t t' (c.get r.output : StateM FileTree _) := by
    refine (Echoes.read hread).bind_pure fun found => ?_
    cases found with
    | error e => exact ⟨_, rfl⟩
    | ok x =>
      simp only
      cases Cache.Entry.decode x <;> exact ⟨_, rfl⟩
  have hstay (t : FileTree) : (t.perform (c.get r.output)).2 = t := by rw [Cache.perform_get]
  rw [Cache.fresh]
  refine hget.bind ?_
  rw [hstay, hstay]
  cases (t.perform (c.get r.output)).1 with
  | error e => exact .pure _ t t' _
  | ok found =>
    cases found with
    | none => exact .pure _ t t' _
    | some e =>
      by_cases hfp : e.fingerprint = fp
      · simp only [if_pos hfp]
        refine (Echoes.kind hkind).bind_pure fun found => ?_
        cases found <;> exact ⟨_, rfl⟩
      · simp only [if_neg hfp]
        exact .pure _ t t' _

theorem check_echoes (l : Loaded) : Echoes (r.Touches t.current) t t' (check r l) := by
  rw [check]
  cases hc : r.cache with
  | none =>
    refine (Echoes.pure _ t t' none).bind ?_
    exact (timed_echoes "codegen" (.pure _ _ _ _)).bind_pure fun _ => ⟨_, rfl⟩
  | some c =>
    refine (fresh_echoes hr ht ht' hs hc l.fingerprint).bind ?_
    -- what follows looks at no file
    cases (t.perform (c.fresh r.output l.fingerprint)).1 with
    | some e => exact .pure _ _ _ _
    | none => exact (timed_echoes "codegen" (.pure _ _ _ _)).bind_pure fun _ => ⟨_, rfl⟩

/-- The directory of the output is made in both trees or in none.  If it is, both have the same
at the output still. -/
theorem makeDirectories_echoes :
    Echoes (r.Touches t.current) t t'
        (Host.makeDirectories (Path.directory r.output) : StateM FileTree _) ∧
      ∀ u u' v v', t.perform (Host.makeDirectories (Path.directory r.output)) = (.ok v, u) →
        t'.perform (Host.makeDirectories (Path.directory r.output)) = (.ok v', u') →
        u.get? (target t.current r.output).dropLast = some .directory ∧
          u'.get? (target t.current r.output).dropLast = some .directory ∧
          u.get? (target t.current r.output) = u'.get? (target t.current r.output) := by
  obtain ⟨o, ho⟩ := hr.output
  have hsame := hs.output
  rw [← ho] at hsame ⊢
  rcases o.names_cases with hup | ⟨d, n, hn, rfl⟩
  · -- there is nothing to be made
    obtain ⟨d, hdup, hd⟩ := o.exists_directory hup
    have hmake := makeDirectories_exists ht.sound (get?_up ht.sound hdup)
    have hmake' := makeDirectories_exists ht'.sound (get?_up ht'.sound hdup)
    have habove := ht.sound.directory_above (get?_up ht.sound hup) (List.dropLast_prefix _)
    have habove' := ht'.sound.directory_above (get?_up ht'.sound hup) (List.dropLast_prefix _)
    rw [hs.current] at habove'
    rw [Echoes, hd, hmake, hmake']
    refine ⟨⟨rfl, .refl _ t t'⟩, ?_⟩
    rintro u u' v v' ⟨⟩ ⟨⟩
    exact ⟨habove, habove', hsame.get?⟩
  · rw [target_child] at hsame ⊢
    rw [d.directory_child, List.dropLast_concat]
    refine ⟨.makeDirectories ht.sound ht'.sound hs.current (fun j hj => ?_) fun j hj =>
      hsame.isFile j (hj.trans (List.prefix_append _ _)), fun u u' v v' hu hu' => ?_⟩
    · rw [Request.Touches, ← ho, target_child]
      refine ⟨hj.trans (List.prefix_append _ _), ?_⟩
      rintro rfl
      exact absurd hj.length_le (by simp)
    · have hmade := of_makeDirectories ht.sound hu
      have hmade' := of_makeDirectories ht'.sound hu'
      rw [hs.current] at hmade'
      refine ⟨hmade.get?_self, hmade'.get?_self, ?_⟩
      rw [hmade.get?_child, hmade'.get?_child]
      exact hsame.get?

theorem writeOutput_echoes (text : Text) :
    Echoes (r.Touches t.current) t t' (writeOutput r text : StateM FileTree _) := by
  obtain ⟨o, ho⟩ := hr.output
  have hne : r.output ≠ [] := ho ▸ o.path_ne_nil
  obtain ⟨hmake, hdone⟩ := makeDirectories_echoes hr ht ht' hs
  rw [writeOutput]
  split
  · exact .pure _ t t' _
  rw [if_neg hne]
  refine hmake.bind ?_
  have hsame := hmake.1
  have hext := hmake.2.left
  have hext' := hmake.2.right
  generalize t.perform (Host.makeDirectories (Path.directory r.output)) = made at *
  generalize t'.perform (Host.makeDirectories (Path.directory r.output)) = made' at *
  obtain ⟨res, u⟩ := made
  obtain ⟨res', u'⟩ := made'
  cases res with
  | error e => exact .pure _ _ _ _
  | ok v =>
    obtain rfl : .ok v = res' := hsame
    obtain ⟨habove, habove', hget⟩ := hdone u u' v v rfl rfl
    refine Echoes.bind_pure ?_ fun written => ?_
    · rw [← ho, ← hext.current] at habove habove' hget
      rw [← ho]
      refine .write (hext.sound ht.sound) (hext'.sound ht'.sound) ?_ (.inl ?_) habove habove' hget
      · rw [hext'.current, hs.current, hext.current]
      · rw [hext.current, ho]
    · cases written <;> exact ⟨_, rfl⟩

theorem write_echoes (g : Generated) : Echoes (r.Touches t.current) t t' (write r g) := by
  refine (timed_echoes "write" (writeOutput_echoes hr ht ht' hs _)).bind_pure fun written => ?_
  obtain ⟨written, run⟩ := written
  cases g.compilation.fault <;> cases written <;> exact ⟨_, rfl⟩

theorem store_echoes (g : Generated) : Echoes (r.Touches t.current) t t' (store r g) := by
  rw [store]
  cases hc : r.cache with
  | none => exact .pure _ t t' _
  | some c =>
    obtain ⟨d, hd⟩ := hr.cache c hc
    have hentry := Cache.entryPath_eq hd r.output
    have hcache := ht.cache c hc
    have hcache' := ht'.cache c hc
    have hsame := (hs.entry c hc).get?
    rw [hs.current] at hcache'
    rw [hentry, target_child] at hsame
    rw [← hd] at hcache hcache'
    refine Echoes.bind_pure ?_ fun stored => ⟨_, rfl⟩
    rw [Cache.storeIn, Cache.put, hentry]
    refine .replace ht.sound ht'.sound hs.current _ (.inr ⟨c, hc, ?_⟩) hcache hcache' hsame
    rw [hentry, target_child]

end Echoes

end Job

end StumpGen
