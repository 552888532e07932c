import StumpGen.Proofs.FileEffects
import StumpGen.Proofs.Paths
import Mathlib.Data.List.Infix

/-!
# Where shortest paths lead

In a tree where everything stands in a directory (`FileTree.Sound`), what a shortest path meets
depends on little: on what stands at the place it leads to, and on whether a file stands on the
way there.  Directories on the way make no difference, because where one is missing nothing is
found either way.

* `FileTree.place_path` : where a shortest path leads, or what it meets instead.
* `FileTree.SameWay` : two trees have the same at a place and the same files on the way to it;
  then reading gives the same in both (`SameWay.read`, `SameWay.kind`).
* `FileTree.makeDirectories_ok`, `FileTree.makeDirectories_error` : **directories are made**
  unless a file is in the way, and then nothing is.
-/

namespace StumpGen

namespace Path.Route

/-- The place from which a route goes down. -/
def origin (r : Route) (current : FileTree.Place) : FileTree.Place :=
  if r.rooted then [] else current.take (current.length - r.up)

/-- A route is a way up, or it ends in a name. -/
@[elab_as_elim]
theorem names_induction {motive : Route → Prop} (r : Route)
    (up : ∀ r : Route, r.names = [] → motive r)
    (child : ∀ (r : Route) {n : Text} (hn : IsProper n), motive r → motive (r.child hn)) :
    motive r := by
  obtain ⟨rooted, m, names, hup, hnames⟩ := r
  induction names using List.reverseRecOn with
  | nil => exact up _ rfl
  | append_singleton names n ih =>
    obtain ⟨hinit, hn⟩ := List.forall_mem_append.1 hnames
    exact child ⟨rooted, m, names, hup, hinit⟩ (hn n List.mem_cons_self) (ih hinit)

theorem names_cases (r : Route) :
    r.names = [] ∨ ∃ (d : Route) (n : Text) (hn : IsProper n), r = d.child hn := by
  induction r using names_induction with
  | up r hr => exact .inl hr
  | child d hn _ => exact .inr ⟨d, _, hn, rfl⟩

/-- The route as far as its first `m` names. -/
def upTo (r : Route) (m : Nat) : Route where
  rooted := r.rooted
  up := r.up
  names := r.names.take m
  up_eq_zero := r.up_eq_zero
  names_proper n hn := r.names_proper n (List.mem_of_mem_take hn)

theorem upTo_eq (r : Route) {m : Nat} (hm : r.names.length ≤ m) : r.upTo m = r := by
  obtain ⟨rooted, up, names, hup, hnames⟩ := r
  simp only [upTo, List.take_of_length_le hm]

theorem upTo_child (r : Route) {n : Text} (hn : IsProper n) {m : Nat} (hm : m ≤ r.names.length) :
    (r.child hn).upTo m = r.upTo m := by
  simp only [upTo, rooted_child, up_child, names_child, List.take_append_of_le_length hm]

end Path.Route

namespace FileTree

open StumpGen.Path

variable {t t' : FileTree} {k j : Place}

/-! ### Sound trees -/

/-- A tree where everything stands in a directory, and relative paths start in one. -/
structure Sound (t : FileTree) : Prop where
  above : ∀ k, t.get? k ≠ none → t.get? k.dropLast = some .directory
  current : t.get? t.current = some .directory

/-- Only what is listed needs to stand in a directory. -/
theorem sound_iff : t.Sound ↔
    (∀ e ∈ t.entries, t.get? e.1.dropLast = some .directory) ∧
      t.get? t.current = some .directory := by
  constructor
  · intro ht
    refine ⟨fun e he => ht.above e.1 fun hnone => ?_, ht.current⟩
    by_cases hk : e.1 = []
    · rw [hk] at hnone
      cases hnone
    · rw [get?, if_neg hk, List.lookup_eq_none_iff] at hnone
      simpa using hnone e he
  · rintro ⟨hentries, hcurrent⟩
    refine ⟨fun k hk => ?_, hcurrent⟩
    by_cases hroot : k = []
    · rw [hroot]
      rfl
    · rw [get?, if_neg hroot] at hk
      obtain ⟨e, he⟩ := Option.ne_none_iff_exists'.1 hk
      obtain ⟨l₁, l₂, hl, -⟩ := List.lookup_eq_some_iff.1 he
      exact hentries (k, e) (by simp [hl])

instance (t : FileTree) : Decidable t.Sound := decidable_of_iff _ sound_iff.symm

/-- Whether a file stands at a place. -/
def isFile (t : FileTree) (k : Place) : Bool :=
  match t.get? k with
  | some (.file _) => true
  | _ => false

theorem isFile_of_get? {x : Text} (h : t.get? k = some (.file x)) : t.isFile k = true := by
  rw [isFile, h]

theorem isFile_of_directory (h : t.get? k = some .directory) : t.isFile k = false := by
  rw [isFile, h]

theorem isFile_of_none (h : t.get? k = none) : t.isFile k = false := by
  rw [isFile, h]

theorem get?_of_isFile (h : t.isFile k = true) : ∃ x, t.get? k = some (.file x) := by
  rw [isFile] at h
  split at h
  · rename_i x hx
    exact ⟨x, hx⟩
  · cases h

/-- Whether a file stands on the way to a place, or there. -/
def obstructed (t : FileTree) (k : Place) : Bool := k.inits.any t.isFile

theorem obstructed_eq_true : t.obstructed k = true ↔ ∃ j, j <+: k ∧ t.isFile j = true := by
  simp [obstructed]

theorem obstructed_concat (n : Text) :
    t.obstructed (k ++ [n]) = (t.obstructed k || t.isFile (k ++ [n])) := by
  rw [Bool.eq_iff_iff, Bool.or_eq_true, obstructed_eq_true, obstructed_eq_true]
  constructor
  · rintro ⟨j, hj, hf⟩
    rcases List.prefix_concat_iff.1 hj with rfl | hj
    · exact .inr hf
    · exact .inl ⟨j, hj, hf⟩
  · rintro (⟨j, hj, hf⟩ | hf)
    · exact ⟨j, hj.trans (List.prefix_append k [n]), hf⟩
    · exact ⟨k ++ [n], List.prefix_rfl, hf⟩

/-- Why nothing is found at a place. -/
def obstacle (t : FileTree) (k : Place) : FileError.Cause :=
  if t.obstructed k then .notDirectory else .missing

namespace Sound

theorem get?_above (ht : t.Sound) (hk : t.get? k ≠ none) (hj : j <+: k) (hne : j ≠ k) :
    t.get? j = some .directory := by
  induction k using List.reverseRecOn with
  | nil => exact absurd (List.prefix_nil.1 hj) hne
  | append_singleton k n ih =>
    have hparent : t.get? k = some .directory := by
      have := ht.above (k ++ [n]) hk
      rwa [List.dropLast_concat] at this
    rcases List.prefix_concat_iff.1 hj with rfl | hj
    · exact absurd rfl hne
    by_cases hjk : j = k
    · rw [hjk, hparent]
    · exact ih (by simp [hparent]) hj hjk

theorem directory_above (ht : t.Sound) (hk : t.get? k = some .directory) (hj : j <+: k) :
    t.get? j = some .directory := by
  by_cases hjk : j = k
  · rw [hjk, hk]
  · exact ht.get?_above (by simp [hk]) hj hjk

theorem get?_origin (ht : t.Sound) (r : Route) :
    t.get? (r.origin t.current) = some .directory := by
  rw [Route.origin]
  cases r.rooted with
  | true => rfl
  | false => exact ht.directory_above ht.current (List.take_prefix _ _)

theorem obstructed_directory (ht : t.Sound) (hk : t.get? k = some .directory) :
    t.obstructed k = false := by
  rw [← Bool.not_eq_true, obstructed_eq_true]
  rintro ⟨j, hj, hf⟩
  rw [isFile_of_directory (ht.directory_above hk hj)] at hf
  cases hf

/-- In a directory nothing but a file itself is in the way. -/
theorem obstructed_eq (ht : t.Sound) (hk : t.get? k.dropLast = some .directory) :
    t.obstructed k = t.isFile k := by
  rcases List.eq_nil_or_concat k with rfl | ⟨d, n, rfl⟩
  · rfl
  · rw [List.concat_eq_append, List.dropLast_concat] at hk
    rw [List.concat_eq_append, obstructed_concat, ht.obstructed_directory hk, Bool.false_or]

/-- Something is put into a directory, where no directory is. -/
theorem set (ht : t.Sound) {e : Entry} (hparent : t.get? k.dropLast = some .directory)
    (hk : t.get? k ≠ some .directory) : (t.set k e).Sound := by
  have hne : k ≠ [] := by
    rintro rfl
    exact hk rfl
  have hlast : k.dropLast ≠ k := by
    intro h
    rw [h] at hparent
    exact hk hparent
  constructor
  · intro j hj
    rw [get?_set hne] at hj ⊢
    by_cases hjk : j = k
    · rw [hjk, if_neg hlast, hparent]
    · rw [if_neg hjk] at hj
      -- nothing stood below the place, so nothing does now
      have habove := ht.above j hj
      rw [if_neg, habove]
      rintro h
      rw [h] at habove
      exact hk habove
  · have hcurrent := ht.current
    rw [get?_set hne, if_neg]
    · exact hcurrent
    · rintro h
      rw [← h] at hk
      exact hk hcurrent

end Sound

/-! ### Paths -/

/-- What goes up from one directory to the next for `..` goes up as often as it has to. -/
theorem climb {β : Type} {f : Place → List Text → β} {k : Place}
    (hup : ∀ j, j <+: k → ∀ rest, f j (parent :: rest) = f j.dropLast rest) (n : Nat)
    (names : List Text) :
    f k (List.replicate n parent ++ names) = f (k.take (k.length - n)) names := by
  induction n generalizing k with
  | zero => simp
  | succ n ih =>
    have htake : k.dropLast.take (k.dropLast.length - n) = k.take (k.length - (n + 1)) := by
      rw [List.dropLast_eq_take, List.take_take, List.length_take]
      congr 1
      omega
    have habove := ih fun j hj => hup j (hj.trans (List.dropLast_prefix k))
    rw [List.replicate_succ, List.cons_append, hup k List.prefix_rfl, habove, htake]

theorem lead_names {names : List Text} (h : ∀ n ∈ names, IsProper n) (k : Place) :
    lead k names = k ++ names := by
  induction names generalizing k with
  | nil => simp [lead]
  | cons n names ih =>
    obtain ⟨hn, hnames⟩ := List.forall_mem_cons.1 h
    rw [lead, if_neg (not_or.2 ⟨hn.ne_nil, hn.ne_here⟩), if_neg hn.ne_parent, ih hnames,
      List.append_assoc, List.singleton_append]

/-- Where the path of a route leads. -/
theorem target_path (r : Route) (current : Place) :
    target current r.path = r.origin current ++ r.names := by
  have hskip (k : Place) (p : Text) (rest : List Text) (hp : p = [] ∨ p = here) :
      lead k (p :: rest) = lead k rest := by
    rw [lead, if_pos hp]
  have hup (k : Place) (rest : List Text) : lead k (parent :: rest) = lead k.dropLast rest := by
    rw [lead, if_neg (by decide), if_pos rfl]
  rw [target, r.isAbsolute_path, r.skip_split (hskip _), Route.parts, climb fun j _ => hup j,
    lead_names r.names_proper, Route.origin]
  cases r.rooted <;> simp

theorem target_child (r : Route) {n : Text} (hn : IsProper n) (current : Place) :
    target current (r.child hn).path = target current r.path ++ [n] := by
  rw [target_path, target_path, Route.names_child, ← List.append_assoc]
  rfl

theorem target_upTo (r : Route) (m : Nat) (current : Place) :
    target current (r.upTo m).path = r.origin current ++ r.names.take m :=
  target_path _ _

theorem target_upTo_above (r : Route) (m : Nat) (current : Place) :
    target current (r.upTo m).path <+: target current r.path := by
  rw [target_upTo, target_path]
  exact (List.prefix_append_right_inj _).2 (List.take_prefix m r.names)

theorem follow_append (k : Place) (names rest : List Text) :
    t.follow k (names ++ rest) = (t.follow k names).bind (t.follow · rest) := by
  induction names generalizing k with
  | nil => rfl
  | cons n names ih =>
    rw [List.cons_append, follow, follow]
    cases t.get? k with
    | none => rfl
    | some e =>
      cases e with
      | file x => rfl
      | directory =>
        simp only
        split_ifs <;> exact ih _

theorem follow_name {n : Text} (hn : IsProper n) (k : Place) : t.follow k [n] =
    if t.get? k = some .directory then .ok (k ++ [n])
    else .error (if t.isFile k then .notDirectory else .missing) := by
  rw [follow, isFile]
  cases t.get? k with
  | none => rfl
  | some e =>
    cases e with
    | file x => rfl
    | directory => simp [follow, hn.ne_nil, hn.ne_here, hn.ne_parent]

namespace Sound

variable (ht : t.Sound)

include ht

theorem follow_parts (hk : t.get? k = some .directory) (r : Route) :
    t.follow k (r.path.split slash) = t.follow (k.take (k.length - r.up)) r.names := by
  have hskip (p : Text) (rest : List Text) (hp : p = [] ∨ p = here) :
      t.follow k (p :: rest) = t.follow k rest := by
    rw [follow, hk]
    exact if_pos hp
  have hup (j : Place) (hj : j <+: k) (rest : List Text) :
      t.follow j (parent :: rest) = t.follow j.dropLast rest := by
    rw [follow, ht.directory_above hk hj]
    exact (if_neg (by decide)).trans (if_pos rfl)
  rw [r.skip_split hskip, Route.parts, climb hup]

/-- Names are followed as long as they lead to directories. -/
theorem follow_names (hk : t.get? k = some .directory) {names : List Text}
    (h : ∀ n ∈ names, IsProper n) : t.follow k names =
      if t.get? (k ++ names).dropLast = some .directory then .ok (k ++ names)
      else .error (t.obstacle (k ++ names)) := by
  induction names using List.reverseRecOn with
  | nil =>
    rw [List.append_nil, if_pos (ht.directory_above hk (List.dropLast_prefix k))]
    rfl
  | append_singleton names n ih =>
    obtain ⟨hnames, hn⟩ := List.forall_mem_append.1 h
    have hn := hn n List.mem_cons_self
    rw [follow_append, ih hnames, ← List.append_assoc, List.dropLast_concat]
    generalize k ++ names = d
    by_cases hd : t.get? d = some .directory
    · have habove := ht.directory_above hd (List.dropLast_prefix d)
      rw [if_pos hd, if_pos habove, ← (follow_name hn d).trans (if_pos hd)]
      rfl
    · -- there is nothing below `d`, so what is in the way to `d` is in the way to the name
      have hempty : t.isFile (d ++ [n]) = false := by
        by_contra hf
        obtain ⟨x, hx⟩ := get?_of_isFile (eq_true_of_ne_false hf)
        have := ht.above (d ++ [n]) (by simp [hx])
        rw [List.dropLast_concat] at this
        exact hd this
      have hobstacle : t.obstacle (d ++ [n]) = t.obstacle d := by
        rw [obstacle, obstructed_concat, hempty, Bool.or_false, obstacle]
      rw [if_neg hd, hobstacle]
      by_cases habove : t.get? d.dropLast = some .directory
      · rw [if_pos habove, obstacle, ht.obstructed_eq habove,
          ← (follow_name hn d).trans (if_neg hd)]
        rfl
      · rw [if_neg habove]
        rfl

/-- **Where a shortest path leads**, or what it meets instead. -/
theorem place_path (r : Route) : t.place r.path =
    if t.get? (target t.current r.path).dropLast = some .directory
    then .ok (target t.current r.path) else .error (t.obstacle (target t.current r.path)) := by
  rw [place, if_neg r.path_ne_nil, r.isAbsolute_path, target_path,
    ← ht.follow_names (ht.get?_origin r) r.names_proper, Route.origin]
  cases r.rooted with
  | true => rw [if_pos rfl, if_pos rfl, ht.follow_parts rfl, List.take_nil]
  | false => rw [if_neg Bool.false_ne_true, if_neg Bool.false_ne_true, ht.follow_parts ht.current]

theorem place_of_above {r : Route}
    (h : t.get? (target t.current r.path).dropLast = some .directory) :
    t.place r.path = .ok (target t.current r.path) := by
  rw [ht.place_path, if_pos h]

/-- Nothing stands where a path does not lead, and if it leads to where nothing is, nothing is in
its way. -/
theorem place_cases (r : Route) :
    t.place r.path = .ok (target t.current r.path) ∧
        (t.get? (target t.current r.path) = none →
          t.obstacle (target t.current r.path) = .missing) ∨
      t.place r.path = .error (t.obstacle (target t.current r.path)) ∧
        t.get? (target t.current r.path) = none := by
  rw [ht.place_path]
  by_cases h : t.get? (target t.current r.path).dropLast = some .directory
  · rw [if_pos h, obstacle, ht.obstructed_eq h]
    refine .inl ⟨rfl, fun hnone => ?_⟩
    rw [isFile_of_none hnone]
    rfl
  · rw [if_neg h]
    refine .inr ⟨rfl, ?_⟩
    by_contra hk
    exact h (ht.above _ hk)

theorem read_path (r : Route) : t.read r.path = match t.get? (target t.current r.path) with
    | none => .error ⟨"open", r.path, t.obstacle (target t.current r.path)⟩
    | some .directory => .error ⟨"read", r.path, .isDirectory⟩
    | some (.file x) => .ok x := by
  rw [read]
  rcases ht.place_cases r with ⟨hp, hmissing⟩ | ⟨hp, hnone⟩
  · rw [hp]
    cases hk : t.get? (target t.current r.path) with
    | none => simp only [hk, hmissing hk]
    | some e => cases e <;> simp only [hk]
  · rw [hp, hnone]

theorem kind_path (r : Route) : t.kind r.path = match t.get? (target t.current r.path) with
    | none => .error ⟨"stat", r.path, t.obstacle (target t.current r.path)⟩
    | some .directory => .ok .directory
    | some (.file _) => .ok .file := by
  rw [kind]
  rcases ht.place_cases r with ⟨hp, hmissing⟩ | ⟨hp, hnone⟩
  · rw [hp]
    cases hk : t.get? (target t.current r.path) with
    | none => simp only [hk, hmissing hk]
    | some e => cases e <;> simp only [hk]
  · rw [hp, hnone]

end Sound

/-! ### Trees that are alike -/

/-- Two trees have the same at a place, and the same files on the way there. -/
structure SameWay (t t' : FileTree) (k : Place) : Prop where
  get? : t.get? k = t'.get? k
  isFile : ∀ j, j <+: k → t.isFile j = t'.isFile j

namespace SameWay

theorem refl (t : FileTree) (k : Place) : SameWay t t k := ⟨rfl, fun _ _ => rfl⟩

theorem obstacle (h : SameWay t t' k) : t.obstacle k = t'.obstacle k := by
  have hobstructed : t.obstructed k = t'.obstructed k := by
    rw [Bool.eq_iff_iff, obstructed_eq_true, obstructed_eq_true]
    constructor
    · rintro ⟨j, hj, hf⟩
      exact ⟨j, hj, h.isFile j hj ▸ hf⟩
    · rintro ⟨j, hj, hf⟩
      exact ⟨j, hj, (h.isFile j hj).symm ▸ hf⟩
  rw [FileTree.obstacle, FileTree.obstacle, hobstructed]

section

variable (ht : t.Sound) (ht' : t'.Sound) (hcurrent : t'.current = t.current) {r : Route}
  (h : SameWay t t' (target t.current r.path))

include ht ht' hcurrent h

theorem read : t.read r.path = t'.read r.path := by
  rw [ht.read_path, ht'.read_path, hcurrent, h.get?, h.obstacle]

theorem kind : t.kind r.path = t'.kind r.path := by
  rw [ht.kind_path, ht'.kind_path, hcurrent, h.get?, h.obstacle]

end

end SameWay

/-! ### Making directories -/

/-- A tree that is as sound as another one and has files wherever that one has. -/
structure Extends (t u : FileTree) : Prop where
  current : u.current = t.current
  sound : t.Sound → u.Sound
  isFile : ∀ k, t.isFile k = true → u.isFile k = true

namespace Extends

theorem refl (t : FileTree) : Extends t t := ⟨rfl, id, fun _ => id⟩

theorem trans {u v : FileTree} (h : Extends t u) (h' : Extends u v) : Extends t v where
  current := h'.current.trans h.current
  sound := h'.sound ∘ h.sound
  isFile k := h'.isFile k ∘ h.isFile k

theorem set {e : Entry} (hparent : t.get? k.dropLast = some .directory)
    (hk : t.get? k ≠ some .directory) (he : e = .directory → t.get? k = none) :
    Extends t (t.set k e) := by
  have hne : k ≠ [] := by
    rintro rfl
    exact hk rfl
  refine ⟨rfl, fun ht => ht.set hparent hk, fun j hj => ?_⟩
  obtain ⟨x, hx⟩ := get?_of_isFile hj
  by_cases hjk : j = k
  · cases e with
    | file y => exact isFile_of_get? ((get?_set hne _ j).trans (if_pos hjk))
    | directory =>
      rw [← hjk, hx] at he
      cases he rfl
  · exact isFile_of_get? (((get?_set hne _ j).trans (if_neg hjk)).trans hx)

end Extends

/-- A tree with directories all the way to a place. -/
structure MadeTo (k : Place) (t u : FileTree) : Prop where
  grown : Extends t u
  get? : ∀ j, u.get? j = if j <+: k then some .directory else t.get? j

namespace MadeTo

theorem refl (ht : t.Sound) (hk : t.get? k = some .directory) : MadeTo k t t := by
  refine ⟨.refl t, fun j => ?_⟩
  split_ifs with hj
  · exact ht.directory_above hk hj
  · rfl

variable {u : FileTree} (h : MadeTo k t u)

include h

theorem get?_self : u.get? k = some .directory := by
  rw [h.get?, if_pos List.prefix_rfl]

theorem get?_child (n : Text) : u.get? (k ++ [n]) = t.get? (k ++ [n]) := by
  rw [h.get?, if_neg]
  intro hlong
  exact absurd hlong.length_le (by simp)

/-- One directory more. -/
theorem concat {n : Text} (hn : t.get? (k ++ [n]) = none) :
    MadeTo (k ++ [n]) t (u.set (k ++ [n]) .directory) := by
  have hfree : u.get? (k ++ [n]) = none := (h.get?_child n).trans hn
  refine ⟨h.grown.trans (.set ?_ ?_ fun _ => hfree), fun j => ?_⟩
  · rw [List.dropLast_concat, h.get?_self]
  · rw [hfree]
    simp
  · rw [get?_set (by simp), h.get?]
    by_cases hj : j = k ++ [n]
    · rw [if_pos hj, if_pos (hj ▸ List.prefix_rfl)]
    by_cases hp : j <+: k
    · rw [if_neg hj, if_pos hp, if_pos (hp.trans (List.prefix_append _ _))]
    · rw [if_neg hj, if_neg hp, if_neg]
      intro hlong
      exact (List.prefix_concat_iff.1 hlong).elim hj hp

end MadeTo

section MakeDirectories

variable (ht : t.Sound)

include ht

/-- A way up meets directories only. -/
theorem get?_up {r : Route} (hr : r.names = []) :
    t.get? (target t.current r.path) = some .directory := by
  rw [target_path, hr, List.append_nil, ht.get?_origin]

theorem makeDirectories_exists {r : Route}
    (h : t.get? (target t.current r.path) = some .directory) :
    t.perform (Host.makeDirectories r.path) = (.ok (), t) := by
  have hkind : t.kind r.path = .ok .directory := by rw [ht.kind_path, h]
  obtain ⟨rest, hrest⟩ : ∃ rest, ancestors r.path = r.path :: rest := by
    rw [ancestors_eq]
    cases above? r.path <;> exact ⟨_, rfl⟩
  rw [Host.makeDirectories, hrest, Host.makeChain, perform_bind, perform_kind, hkind]
  rfl

/-- The directories above a path, made first, are those of the path above it. -/
theorem makeChain_above (r : Route) :
    t.perform (Host.makeChain (if r.parts = [] then [] else ancestors r.path)) =
      t.perform (Host.makeDirectories r.path) := by
  by_cases hp : r.parts = []
  · have hnames : r.names = [] := (List.append_eq_nil_iff.1 hp).2
    rw [if_pos hp, makeDirectories_exists ht (get?_up ht hnames)]
    rfl
  · rw [if_neg hp, Host.makeDirectories]

section Child

variable {r : Route} {n : Text} {hn : IsProper n} {u v : FileTree} {e : FileError}
  (h : t.get? (target t.current (r.child hn).path) = none)

include h

theorem makeDirectories_child_error (hr : t.perform (Host.makeDirectories r.path) = (.error e, u)) :
    t.perform (Host.makeDirectories (r.child hn).path) = (.error e, u) := by
  have hkind := ht.kind_path (r.child hn)
  rw [h] at hkind
  rw [Host.makeDirectories, r.ancestors_child, Host.makeChain, perform_bind, perform_kind, hkind]
  simp only [perform_bind, makeChain_above ht, hr, perform_pure]

theorem makeDirectories_child_ok (hr : t.perform (Host.makeDirectories r.path) = (.ok (), u))
    (hu : u.makeDirectory (r.child hn).path = .ok v) :
    t.perform (Host.makeDirectories (r.child hn).path) = (.ok (), v) := by
  have hkind := ht.kind_path (r.child hn)
  have hmake : u.perform (Host.makeDirectory (r.child hn).path)
      = u.perform (update (·.makeDirectory (r.child hn).path)) := rfl
  rw [h] at hkind
  rw [Host.makeDirectories, r.ancestors_child, Host.makeChain, perform_bind, perform_kind, hkind]
  simp only [perform_bind, makeChain_above ht, hr, hmake, perform_update, hu, perform_pure]

end Child

/-- **Directories are made** if no file is in the way. -/
theorem makeDirectories_ok (r : Route)
    (h : ∀ j, j <+: target t.current r.path → t.isFile j = false) :
    ∃ u, t.perform (Host.makeDirectories r.path) = (.ok (), u) ∧
      MadeTo (target t.current r.path) t u := by
  induction r using Route.names_induction with
  | up r hr =>
    have hk := get?_up ht hr
    exact ⟨t, makeDirectories_exists ht hk, .refl ht hk⟩
  | child r hn ih =>
    rename_i n
    cases hk : t.get? (target t.current (r.child hn).path) with
    | some e =>
      cases e with
      | directory => exact ⟨t, makeDirectories_exists ht hk, .refl ht hk⟩
      | file x =>
        have := h _ List.prefix_rfl
        rw [isFile_of_get? hk] at this
        cases this
    | none =>
      have hchild := target_child r hn t.current
      rw [hchild] at h ⊢
      obtain ⟨u, hu, hmade⟩ := ih fun j hj => h j (hj.trans (List.prefix_append _ _))
      have hplace : u.place (r.child hn).path = .ok (target t.current r.path ++ [n]) := by
        have hp := (hmade.grown.sound ht).place_of_above (r := r.child hn)
        rw [hmade.grown.current, hchild, List.dropLast_concat] at hp
        exact hp hmade.get?_self
      have hfree : t.get? (target t.current r.path ++ [n]) = none := hchild ▸ hk
      have hmake : u.makeDirectory (r.child hn).path =
          .ok (u.set (target t.current r.path ++ [n]) .directory) := by
        simp [makeDirectory, hplace, hmade.get?_child n, hfree]
      exact ⟨_, makeDirectories_child_ok ht hk hu hmake, hmade.concat hfree⟩

/-- **No directory is made** if a file is in the way. -/
theorem makeDirectories_error (r : Route) {m : Nat}
    (h : t.isFile (target t.current (r.upTo m).path) = true) :
    t.perform (Host.makeDirectories r.path) =
      (.error ⟨"mkdir", (r.upTo m).path, .notDirectory⟩, t) := by
  induction r using Route.names_induction with
  | up r hr =>
    rw [r.upTo_eq (by simp [hr]), isFile_of_directory (get?_up ht hr)] at h
    cases h
  | child r hn ih =>
    by_cases hm : m ≤ r.names.length
    · -- the file is above the last name, where nothing can be then
      rw [r.upTo_child hn hm] at h ⊢
      refine makeDirectories_child_error ht ?_ (ih h)
      by_contra hk
      have habove := target_upTo_above r m t.current
      have hparent := ht.above _ hk
      rw [target_child, List.dropLast_concat] at hparent
      rw [isFile_of_directory (ht.directory_above hparent habove)] at h
      cases h
    · rw [Route.upTo_eq _ (by simp; omega)] at h ⊢
      obtain ⟨x, hx⟩ := get?_of_isFile h
      have hkind := ht.kind_path (r.child hn)
      rw [hx] at hkind
      rw [Host.makeDirectories, r.ancestors_child, Host.makeChain, perform_bind, perform_kind,
        hkind]
      rfl

/-- On the way to a place there is no file, or the path leads over it. -/
theorem isFile_cases (r : Route) :
    (∀ j, j <+: target t.current r.path → t.isFile j = false) ∨
      ∃ m, t.isFile (target t.current (r.upTo m).path) = true := by
  by_cases h : ∀ j, j <+: target t.current r.path → t.isFile j = false
  · exact .inl h
  push Not at h
  obtain ⟨j, hj, hf⟩ := h
  rw [target_path] at hj
  rcases List.prefix_or_prefix_of_prefix hj (List.prefix_append _ _) with hup | ⟨names, rfl⟩
  · rw [isFile_of_directory (ht.directory_above (ht.get?_origin r) hup)] at hf
    exact absurd rfl hf
  · refine .inr ⟨names.length, ?_⟩
    have hnames : r.names.take names.length = names :=
      (List.prefix_iff_eq_take.1 ((List.prefix_append_right_inj _).1 hj)).symm
    rw [target_upTo, hnames]
    exact eq_true_of_ne_false hf

/-- The tree after directories have been made. -/
theorem of_makeDirectories {r : Route} {u : FileTree} {v : Unit}
    (h : t.perform (Host.makeDirectories r.path) = (.ok v, u)) :
    MadeTo (target t.current r.path) t u := by
  rcases isFile_cases ht r with hfree | ⟨m, hf⟩
  · obtain ⟨u', hu, hmade⟩ := makeDirectories_ok ht r hfree
    rw [hu] at h
    cases h
    exact hmade
  · rw [makeDirectories_error ht r hf] at h
    cases h

end MakeDirectories

end FileTree

end StumpGen
