import StumpGen.Manifest
import StumpGen.Proofs.Paths

/-!
# Paths of a project

The paths of a project's units are written from the directory of its manifest, and resolved when
the manifest is read.  Messages and displays show them from that directory again, if they lie in
it.

* `Manifest.unit_routes` : the paths of the units are the shortest ones.
* `Manifest.relative_ne_nil` : every unit has a name that can be shown.
* `Manifest.relative_injOn` : **the name of an input tells the input**, if the project has an
  absolute path.
-/

namespace StumpGen

namespace Path

/-- What two paths have in common stands in front of both. -/
theorem dropCommon_eq (as bs : List Text) :
    ∃ c, as = c ++ (dropCommon as bs).1 ∧ bs = c ++ (dropCommon as bs).2 := by
  fun_induction dropCommon as bs with
  | case1 as b bs ih =>
    obtain ⟨c, has, hbs⟩ := ih
    exact ⟨b :: c, congrArg (b :: ·) has, congrArg (b :: ·) hbs⟩
  | case2 a as b bs _ => exact ⟨[], rfl, rfl⟩
  | case3 as bs _ => exact ⟨[], rfl, rfl⟩

theorem ofParts_ne_nil {ps : List Text} (h : ∀ p ∈ ps, p ≠ []) (rooted : Bool) :
    ofParts rooted ps ≠ [] := by
  rw [ofParts]
  cases rooted with
  | true => simp
  | false =>
    rw [if_neg Bool.false_ne_true]
    split
    · decide
    next hps => exact Text.join_ne_nil hps h

theorem startsWith_ofParts (p : Text) (ps : List Text) :
    (ofParts false (p :: ps)).startsWith p = true := by
  rw [ofParts, if_neg Bool.false_ne_true, if_neg (List.cons_ne_nil p ps), Text.startsWith,
    List.isPrefixOf_iff_prefix]
  cases ps with
  | nil => exact List.prefix_rfl
  | cons q ps => exact ⟨[slash] ++ Text.join [slash] (q :: ps), (List.append_assoc ..).symm⟩

theorem isAbsolute_clean (p : Text) : isAbsolute (clean p) = isAbsolute p := by
  obtain ⟨r, hrooted, hparts⟩ := exists_route p
  have hpath : clean p = r.path := by rw [clean, ← hrooted, ← hparts, Route.path]
  rw [hpath, r.isAbsolute_path, hrooted]

theorem isAbsolute_directory {p : Text} (h : isAbsolute p = true) :
    isAbsolute (directory p) = true := by
  obtain ⟨rest, rfl⟩ : ∃ rest, p = slash :: rest := by
    cases p with
    | nil => cases h
    | cons b rest => exact ⟨rest, by simpa [isAbsolute] using h⟩
  rw [directory, isAbsolute_clean]
  -- what follows the last slash does not hold the first one
  have hstart : ((slash :: rest).reverse.dropWhile (· ≠ slash)).reverse <+: slash :: rest := by
    have := List.dropWhile_suffix (l := (slash :: rest).reverse) (· ≠ slash)
    rwa [← List.reverse_prefix, List.reverse_reverse] at this
  cases hq : ((slash :: rest).reverse.dropWhile (· ≠ slash)).reverse with
  | nil =>
    have := List.dropWhile_eq_nil_iff.1 (List.reverse_eq_nil_iff.1 hq) slash (by simp)
    simp at this
  | cons b q =>
    rw [hq, List.cons_prefix_cons] at hstart
    rw [hstart.1]
    rfl

/-- A path that leads from one place to another, if it can be told, is never empty. -/
theorem relative?_ne_nil {origin : Text} {target : Route} {r : Text}
    (h : relative? origin target.path = some r) : r ≠ [] := by
  obtain ⟨c, -, htarget⟩ := dropCommon_eq (parts origin) (parts target.path)
  rw [relative?] at h
  split at h
  · cases h
  · simp only at h
    split at h
    · cases h
    · obtain rfl := Option.some.inj h
      refine ofParts_ne_nil (fun p hp => ?_) false
      rcases List.mem_append.1 hp with hp | hp
      · obtain ⟨-, -, rfl⟩ := List.mem_map.1 hp
        decide
      · refine target.ne_nil_parts p ?_
        rw [← target.parts_path, htarget]
        exact List.mem_append_right c hp

end Path

namespace Manifest

open StumpGen.Path

theorem resolve_route {root p : Text} (hroot : root ≠ []) (hp : p.trim ≠ []) :
    ∃ r : Route, r.path = resolve root p := by
  rw [resolve]
  split
  · exact clean_eq p.trim
  · rw [join, if_neg hroot, if_neg hp]
    exact clean_eq _

/-- The paths of the units are those of the manifest, resolved. -/
theorem checkUnits_eq_ok {root : Text} {outputs : List (Text × Nat)} {n : Nat}
    {us vs : List Source} (h : checkUnits root outputs n us = .ok vs) :
    ∀ v ∈ vs, ∃ u ∈ us, (u.input.trim ≠ [] ∧ v.input = resolve root u.input) ∧
      u.output.trim ≠ [] ∧ v.output = resolve root u.output := by
  induction us generalizing outputs n vs with
  | nil =>
    cases h
    simp
  | cons u us ih =>
    rw [checkUnits] at h
    by_cases hin : u.input.trim = []
    · rw [if_pos hin] at h
      cases h
    by_cases hout : u.output.trim = []
    · rw [if_neg hin, if_pos hout] at h
      cases h
    rw [if_neg hin, if_neg hout] at h
    simp only at h
    cases hl : outputs.lookup (resolve root u.output) with
    | some first =>
      rw [hl] at h
      cases h
    | none =>
      rw [hl] at h
      cases hrest : checkUnits root ((resolve root u.output, n) :: outputs) (n + 1) us with
      | error e =>
        simp only [hrest] at h
        cases h
      | ok ws =>
        simp only [hrest] at h
        cases h
        rw [List.forall_mem_cons]
        refine ⟨⟨u, List.mem_cons_self, ⟨hin, rfl⟩, hout, rfl⟩, fun v hv => ?_⟩
        obtain ⟨w, hw, hwv⟩ := ih hrest v hv
        exact ⟨w, List.mem_cons_of_mem u hw, hwv⟩

theorem ofText_eq_ok {path t : Text} {p : Manifest} (h : ofText path t = .ok p) :
    p.root = directory path ∧ ∃ us, checkUnits p.root [] 1 us = .ok p.units := by
  rw [ofText] at h
  split at h
  · cases h
  split at h
  · cases h
  split at h
  · cases h
  rename_i target units used _ _ _
  split at h
  · cases h
  split at h
  · cases h
  cases hu : checkUnits (directory path) [] 1 units with
  | error e =>
    simp only [hu] at h
    cases h
  | ok vs =>
    simp only [hu] at h
    cases h
    exact ⟨rfl, units, hu⟩

/-- Where the cache of a project is. -/
theorem cacheDirectory_route {path t : Text} {p : Manifest} (h : ofText path t = .ok p) :
    ∃ d : Route, d.path = p.cacheDirectory := by
  obtain ⟨root, hroot⟩ := clean_eq (path.reverse.dropWhile (· ≠ slash)).reverse
  have hstump : IsProper ".fstump" := ⟨by decide, by decide, by decide, by decide⟩
  have hcache : IsProper "cache" := ⟨by decide, by decide, by decide, by decide⟩
  refine ⟨(root.child hstump).child hcache, ?_⟩
  rw [cacheDirectory, (ofText_eq_ok h).1, directory, ← hroot, root.join_child hstump,
    Route.join_child _ hcache]

/-- The paths of the units are the shortest ones. -/
theorem unit_routes {path t : Text} {p : Manifest} (h : ofText path t = .ok p) :
    ∀ u ∈ p.units, (∃ i : Route, i.path = u.input) ∧ ∃ o : Route, o.path = u.output := by
  obtain ⟨hroot, us, hus⟩ := ofText_eq_ok h
  obtain ⟨root, hclean⟩ := clean_eq (path.reverse.dropWhile (· ≠ slash)).reverse
  have hne : p.root ≠ [] := by
    rw [hroot, directory, ← hclean]
    exact root.path_ne_nil
  intro v hv
  obtain ⟨u, -, ⟨hin, hinput⟩, hout, houtput⟩ := checkUnits_eq_ok hus v hv
  rw [hinput, houtput]
  exact ⟨resolve_route hne hin, resolve_route hne hout⟩

/-! ### Names that are shown -/

/-- Every unit has a name that can be shown. -/
theorem relative_ne_nil {path t : Text} {p : Manifest} (h : ofText path t = .ok p) :
    ∀ u ∈ p.units, p.relative u.input ≠ [] := by
  intro u hu
  obtain ⟨⟨i, hi⟩, -⟩ := unit_routes h u hu
  rw [← hi, relative]
  split
  next r hr =>
    split
    · exact i.path_ne_nil
    · exact relative?_ne_nil hr
  next => exact i.path_ne_nil

/-- If a project has an absolute path, a place in it is shown by the way that leads there from the
root of the project, and any other place by its path. -/
theorem relative_cases {p : Manifest} {root i : Route} (hroot : p.root = root.path)
    (habsolute : root.rooted = true) (hi : i.rooted = true) :
    p.relative i.path = i.path ∨
      ∃ d : Route, d.rooted = false ∧ p.relative i.path = d.path ∧
        i.parts = root.parts ++ d.parts := by
  have hnames {r : Route} (hr : r.rooted = true) : r.parts = r.names := by
    rw [Route.parts, r.up_eq_zero hr]
    rfl
  obtain ⟨c, horigin, htarget⟩ := dropCommon_eq root.parts i.parts
  rw [relative, hroot, relative?, root.isAbsolute_path, i.isAbsolute_path, habsolute, hi,
    if_neg (by simp), root.parts_path, i.parts_path]
  simp only
  generalize dropCommon root.parts i.parts = rest at horigin htarget
  obtain ⟨up, down⟩ := rest
  cases up with
  | nil =>
    -- the place lies in the project
    have hdown : ∀ n ∈ down, IsProper n := fun n hn => i.names_proper n <| by
      rw [← hnames hi, htarget]
      exact List.mem_append_right c hn
    let d : Route := ⟨false, 0, down, by rintro ⟨⟩, hdown⟩
    simp only [List.head?_nil, reduceCtorEq, if_false, List.map_nil, List.nil_append]
    split
    · exact .inl rfl
    · refine .inr ⟨d, rfl, rfl, ?_⟩
      rw [htarget, horigin, List.append_nil]
      rfl
  | cons n up =>
    have hn : n ≠ parent := by
      refine (root.names_proper n ?_).ne_parent
      rw [← hnames habsolute, horigin]
      simp
    rw [List.head?_cons, if_neg (by simpa using hn), List.map_cons, List.cons_append]
    exact .inl (if_pos (startsWith_ofParts parent _))

theorem relative_inj {p : Manifest} {root i j : Route} (hroot : p.root = root.path)
    (habsolute : root.rooted = true) (hi : i.rooted = true) (hj : j.rooted = true)
    (h : p.relative i.path = p.relative j.path) : i.path = j.path := by
  have hne {r d : Route} (hr : r.rooted = true) (hd : d.rooted = false) : r.path ≠ d.path := by
    intro heq
    rw [← r.isAbsolute_path, heq, d.isAbsolute_path, hd] at hr
    cases hr
  rcases relative_cases hroot habsolute hi with hi' | ⟨d, hd, hi', hidown⟩
  · rcases relative_cases hroot habsolute hj with hj' | ⟨f, hf, hj', -⟩
    · rw [← hi', h, hj']
    · exact absurd (hi'.symm.trans (h.trans hj')) (hne hi hf)
  · rcases relative_cases hroot habsolute hj with hj' | ⟨f, hf, hj', hjdown⟩
    · exact absurd (hj'.symm.trans (h.symm.trans hi')) (hne hj hd)
    · have hparts : d.parts = f.parts := by
        rw [← d.parts_path, ← f.parts_path, ← hi', h, hj']
      rw [Route.path, Route.path, hi, hj, hidown, hjdown, hparts]

theorem isAbsolute_resolve {root : Text} (hroot : isAbsolute root = true) {q : Text}
    (hq : q.trim ≠ []) : isAbsolute (resolve root q) = true := by
  have hne : root ≠ [] := by
    rintro rfl
    cases hroot
  rw [resolve]
  split
  next habsolute => rw [isAbsolute_clean, habsolute]
  next =>
    obtain ⟨b, rest, rfl⟩ := List.exists_cons_of_ne_nil hne
    rw [join, if_neg hne, if_neg hq, isAbsolute_clean]
    exact hroot

/-- **The name of an input tells the input**, if the project has an absolute path. -/
theorem relative_injOn {path t : Text} {p : Manifest} (h : ofText path t = .ok p)
    (hpath : isAbsolute path = true) {u v : Source} (hu : u ∈ p.units) (hv : v ∈ p.units)
    (hname : p.relative u.input = p.relative v.input) : u.input = v.input := by
  obtain ⟨hroot, us, hus⟩ := ofText_eq_ok h
  have habsolute : isAbsolute p.root = true := by
    rw [hroot]
    exact isAbsolute_directory hpath
  obtain ⟨root, hclean⟩ := clean_eq (path.reverse.dropWhile (· ≠ slash)).reverse
  have hroot' : p.root = root.path := by rw [hroot, directory, hclean]
  have hinput {u : Source} (hu : u ∈ p.units) :
      ∃ i : Route, i.path = u.input ∧ i.rooted = true := by
    obtain ⟨i, hi⟩ := (unit_routes h u hu).1
    obtain ⟨w, -, ⟨htrim, hw⟩, -⟩ := checkUnits_eq_ok hus u hu
    refine ⟨i, hi, ?_⟩
    rw [← i.isAbsolute_path, hi, hw]
    exact isAbsolute_resolve habsolute htrim
  obtain ⟨i, hi, hirooted⟩ := hinput hu
  obtain ⟨j, hj, hjrooted⟩ := hinput hv
  rw [← hi, ← hj] at hname ⊢
  refine relative_inj hroot' ?_ hirooted hjrooted hname
  rw [← root.isAbsolute_path, ← hroot', habsolute]

end Manifest

end StumpGen
