import StumpGen.Host
import StumpGen.Proofs.PlainText
import Mathlib.Data.List.Induction

/-!
# Shortest paths

A shortest path goes up as far as it has to and then down from name to name (`Path.Route`).  The
functions on paths work on texts; this file says what they do to routes.

* `Path.clean_eq` : **a cleaned path is that of a route**.
* `Path.Route.join_child`, `Path.Route.directory_child` : one name more, and one less.
* `Path.Route.ancestors_child` : the directories above a path.
-/

namespace StumpGen

namespace Text

/-! ### Parts between separators -/

theorem notMem_of_mem_split {sep : UInt8} {t p : Text} (h : p ∈ split sep t) : sep ∉ p := by
  induction t generalizing p with
  | nil =>
    obtain rfl := List.mem_singleton.1 h
    exact List.not_mem_nil
  | cons b t ih =>
    rw [split] at h
    split at h
    · rcases List.mem_cons.1 h with rfl | h
      · exact List.not_mem_nil
      · exact ih h
    · rename_i hb
      cases hs : split sep t with
      | nil => exact absurd hs (split_ne_nil sep t)
      | cons q qs =>
        rw [hs] at h ih
        rcases List.mem_cons.1 h with rfl | h
        · rw [List.mem_cons, not_or]
          exact ⟨Ne.symm hb, ih List.mem_cons_self⟩
        · exact ih (List.mem_cons_of_mem _ h)

theorem join_concat {ps : List Text} (h : ps ≠ []) (sep x : Text) :
    join sep (ps ++ [x]) = join sep ps ++ sep ++ x := by
  induction ps with
  | nil => exact absurd rfl h
  | cons p ps ih =>
    cases ps with
    | nil => simp [join]
    | cons q qs =>
      have hjoin (t : List Text) : join sep (p :: q :: t) = p ++ sep ++ join sep (q :: t) := rfl
      have ih := ih (List.cons_ne_nil q qs)
      rw [List.cons_append] at ih
      rw [List.cons_append, List.cons_append, hjoin, hjoin, ih]
      simp

theorem split_join {sep : UInt8} {ps : List Text} (hne : ps ≠ []) (h : ∀ p ∈ ps, sep ∉ p) :
    split sep (join [sep] ps) = ps := by
  induction ps using List.reverseRecOn with
  | nil => exact absurd rfl hne
  | append_singleton ps x ih =>
    obtain ⟨hps, hx⟩ := List.forall_mem_append.1 h
    have hx : split sep x = [x] := split_of_notMem (hx x List.mem_cons_self)
    by_cases hnil : ps = []
    · subst hnil
      exact hx
    · rw [join_concat hnil, List.append_assoc, List.singleton_append, split_append_cons,
        ih hnil hps, hx]

theorem join_ne_nil {sep : Text} {ps : List Text} (hne : ps ≠ []) (h : ∀ p ∈ ps, p ≠ []) :
    join sep ps ≠ [] := by
  cases ps with
  | nil => exact absurd rfl hne
  | cons p ps =>
    have hp := h p List.mem_cons_self
    cases ps with
    | nil => exact hp
    | cons q qs =>
      rw [join]
      · simp [hp]
      · simp

theorem head?_join {sep p : Text} {ps : List Text} (h : p ≠ []) :
    (join sep (p :: ps)).head? = p.head? := by
  cases ps with
  | nil => rfl
  | cons q qs =>
    have hjoin : join sep (p :: q :: qs) = p ++ (sep ++ join sep (q :: qs)) :=
      List.append_assoc _ _ _
    obtain ⟨b, t, rfl⟩ := List.exists_cons_of_ne_nil h
    rw [hjoin]
    rfl

end Text

namespace Path

/-! ### Routes -/

/-- A name that can stand in a directory. -/
structure IsProper (n : Text) : Prop where
  ne_nil : n ≠ []
  ne_here : n ≠ here
  ne_parent : n ≠ parent
  notMem : slash ∉ n

/-- A way that goes up some directories, which it does not if it starts at the root, and then down
from name to name. -/
structure Route where
  /-- Whether it starts at the root. -/
  rooted : Bool
  /-- How many directories it goes up. -/
  up : Nat
  /-- The names on the way down. -/
  names : List Text
  up_eq_zero : rooted = true → up = 0
  names_proper : ∀ n ∈ names, IsProper n

namespace Route

/-- The parts of the shortest path. -/
def parts (r : Route) : List Text := List.replicate r.up parent ++ r.names

/-- The shortest path. -/
def path (r : Route) : Text := ofParts r.rooted r.parts

/-- One name further down. -/
def child (r : Route) {n : Text} (hn : IsProper n) : Route where
  rooted := r.rooted
  up := r.up
  names := r.names ++ [n]
  up_eq_zero := r.up_eq_zero
  names_proper := List.forall_mem_append.2 ⟨r.names_proper, List.forall_mem_singleton.2 hn⟩

variable (r : Route)

@[simp] theorem rooted_child {n : Text} (hn : IsProper n) : (r.child hn).rooted = r.rooted := rfl

@[simp] theorem up_child {n : Text} (hn : IsProper n) : (r.child hn).up = r.up := rfl

@[simp] theorem names_child {n : Text} (hn : IsProper n) :
    (r.child hn).names = r.names ++ [n] := rfl

@[simp] theorem parts_child {n : Text} (hn : IsProper n) : (r.child hn).parts = r.parts ++ [n] := by
  rw [parts, parts, names_child, up_child, List.append_assoc]

theorem notMem_parts : ∀ p ∈ r.parts, slash ∉ p := by
  intro p hp
  rcases List.mem_append.1 hp with hp | hp
  · rw [List.eq_of_mem_replicate hp]
    decide
  · exact (r.names_proper p hp).notMem

theorem ne_nil_parts : ∀ p ∈ r.parts, p ≠ [] := by
  intro p hp
  rcases List.mem_append.1 hp with hp | hp
  · rw [List.eq_of_mem_replicate hp]
    decide
  · exact (r.names_proper p hp).ne_nil

theorem path_ne_nil : r.path ≠ [] := by
  rw [path, ofParts]
  split
  · exact List.cons_ne_nil _ _
  · split
    · decide
    · rename_i hp
      exact Text.join_ne_nil hp r.ne_nil_parts

/-- The parts of a path between its slashes. -/
theorem split_path : r.path.split slash =
    if r.parts = [] then (if r.rooted then [[], []] else [here])
    else (if r.rooted then [[]] else []) ++ r.parts := by
  rw [path, ofParts]
  by_cases hp : r.parts = []
  · rw [hp]
    cases r.rooted <;> decide
  · rw [if_neg hp, if_neg hp]
    cases r.rooted with
    | true =>
      rw [if_pos rfl, if_pos rfl, Text.split, if_pos rfl, Text.split_join hp r.notMem_parts]
      rfl
    | false => exact Text.split_join hp r.notMem_parts

/-- What does not count empty parts and `.` finds the parts of the route in its path. -/
theorem skip_split {β : Type} {f : List Text → β}
    (hskip : ∀ p rest, p = [] ∨ p = here → f (p :: rest) = f rest) :
    f (r.path.split slash) = f r.parts := by
  rw [split_path]
  by_cases hp : r.parts = []
  · rw [if_pos hp, hp]
    cases r.rooted with
    | true => rw [if_pos rfl, hskip [] _ (.inl rfl), hskip [] _ (.inl rfl)]
    | false => rw [if_neg Bool.false_ne_true, hskip here _ (.inr rfl)]
  · rw [if_neg hp]
    cases r.rooted with
    | true => exact hskip [] r.parts (.inl rfl)
    | false => rfl

theorem isAbsolute_path : isAbsolute r.path = r.rooted := by
  rw [path, ofParts]
  cases r.rooted with
  | true => rfl
  | false =>
    rw [if_neg Bool.false_ne_true]
    by_cases hp : r.parts = []
    · rw [if_pos hp]
      decide
    · -- the path starts as its first part does
      rw [if_neg hp]
      obtain ⟨p, ps, hps⟩ := List.exists_cons_of_ne_nil hp
      have hmem : p ∈ r.parts := by rw [hps]; exact List.mem_cons_self
      rw [hps, isAbsolute, Text.head?_join (r.ne_nil_parts p hmem), beq_eq_false_iff_ne]
      intro hhead
      exact r.notMem_parts p hmem (List.mem_of_mem_head? hhead)

theorem foldl_push_names {rooted : Bool} {names : List Text} (h : ∀ n ∈ names, IsProper n)
    (before : List Text) : names.foldl (push rooted) before = names.reverse ++ before := by
  induction names generalizing before with
  | nil => rfl
  | cons n names ih =>
    obtain ⟨hn, hnames⟩ := List.forall_mem_cons.1 h
    have hpush : push rooted before n = n :: before := by
      simp [push, hn.ne_nil, hn.ne_here, hn.ne_parent]
    rw [List.foldl_cons, hpush, ih hnames, List.reverse_cons, List.append_assoc,
      List.singleton_append]

theorem foldl_push_parent (m n : Nat) :
    (List.replicate n parent).foldl (push false) (List.replicate m parent) =
      List.replicate (n + m) parent := by
  induction n generalizing m with
  | zero => rw [Nat.zero_add]; rfl
  | succ n ih =>
    have hpush : push false (List.replicate m parent) parent = List.replicate (m + 1) parent := by
      cases m with
      | zero => decide
      | succ m => simp +decide [push, List.replicate_succ]
    rw [List.replicate_succ, List.foldl_cons, hpush, ih]
    congr 1
    omega

theorem foldl_push_parts : r.parts.foldl (push r.rooted) [] = r.parts.reverse := by
  rw [parts, List.foldl_append, foldl_push_names r.names_proper, List.reverse_append]
  congr 1
  cases hr : r.rooted with
  | true => rw [r.up_eq_zero hr]; rfl
  | false => rw [← List.replicate_zero, foldl_push_parent, List.reverse_replicate, Nat.add_zero]

/-- **The parts of a path** are found again. -/
theorem parts_path : Path.parts r.path = r.parts := by
  have hsplit : (r.path.split slash).foldl (push r.rooted) [] =
      r.parts.foldl (push r.rooted) [] := by
    refine r.skip_split (f := fun ps => ps.foldl (push r.rooted) []) fun p rest hp => ?_
    rw [List.foldl_cons, push, if_pos hp]
  rw [Path.parts, isAbsolute_path, hsplit, foldl_push_parts, List.reverse_reverse]

/-- Going up takes back the last name, or goes one directory further up. -/
theorem exists_push_parent {before : List Text} (h : r.parts = before.reverse) :
    ∃ r' : Route, r'.rooted = r.rooted ∧ r'.parts = (push r.rooted before parent).reverse := by
  rcases List.eq_nil_or_concat r.names with hn | ⟨init, x, hn⟩
  · -- there is nothing but parents in front
    have hbefore : before = List.replicate r.up parent := by
      rw [← List.reverse_reverse before, ← h, parts, hn, List.append_nil, List.reverse_replicate]
    cases hr : r.rooted with
    | true =>
      have hup := r.up_eq_zero hr
      refine ⟨r, hr, ?_⟩
      rw [h, hbefore, hup]
      decide
    | false =>
      refine ⟨⟨false, r.up + 1, [], by rintro ⟨⟩, by simp⟩, rfl, ?_⟩
      have hpush := foldl_push_parent r.up 1
      rw [List.replicate_one, List.foldl_cons, List.foldl_nil] at hpush
      rw [hbefore, hpush, List.reverse_replicate, parts, List.append_nil, Nat.add_comm]
  · rw [List.concat_eq_append] at hn
    have hx : x ≠ parent := by
      refine (r.names_proper x ?_).ne_parent
      rw [hn]
      simp
    have hbefore : before = x :: (List.replicate r.up parent ++ init).reverse := by
      rw [← List.reverse_reverse before, ← h, parts, hn]
      simp
    refine ⟨⟨r.rooted, r.up, init, r.up_eq_zero, fun n hmem => r.names_proper n ?_⟩, rfl, ?_⟩
    · rw [hn]
      exact List.mem_append_left _ hmem
    · simp +decide [hbefore, push, hx, parts]

/-- One part more behind a route is a route. -/
theorem exists_push {before : List Text} (h : r.parts = before.reverse) {p : Text}
    (hp : slash ∉ p) : ∃ r' : Route, r'.rooted = r.rooted ∧
      r'.parts = (push r.rooted before p).reverse := by
  by_cases hskip : p = [] ∨ p = here
  · have hpush : push r.rooted before p = before := by simp [push, hskip]
    exact ⟨r, rfl, by rw [hpush, h]⟩
  by_cases hparent : p = parent
  · rw [hparent]
    exact r.exists_push_parent h
  · have hpush : push r.rooted before p = p :: before := by simp [push, hskip, hparent]
    have hproper : IsProper p := ⟨fun hn => hskip (.inl hn), fun hn => hskip (.inr hn), hparent, hp⟩
    exact ⟨r.child hproper, rfl, by rw [parts_child, hpush, h, List.reverse_cons]⟩

theorem exists_foldl_push {ps before : List Text} (h : r.parts = before.reverse)
    (hps : ∀ p ∈ ps, slash ∉ p) :
    ∃ r' : Route, r'.rooted = r.rooted ∧ r'.parts = (ps.foldl (push r.rooted) before).reverse := by
  induction ps generalizing r before with
  | nil => exact ⟨r, rfl, h⟩
  | cons p ps ih =>
    obtain ⟨hp, hps⟩ := List.forall_mem_cons.1 hps
    obtain ⟨r', hrooted, hparts⟩ := r.exists_push h hp
    rw [← hrooted] at hparts ⊢
    exact ih r' hparts hps

end Route

/-! ### Paths of routes -/

theorem exists_route (p : Text) : ∃ r : Route, r.rooted = isAbsolute p ∧ r.parts = parts p := by
  let start : Route := ⟨isAbsolute p, 0, [], fun _ => rfl, by simp⟩
  have hstart : start.parts = List.reverse [] := rfl
  exact start.exists_foldl_push hstart fun q => Text.notMem_of_mem_split

/-- **A cleaned path is that of a route.** -/
theorem clean_eq (p : Text) : ∃ r : Route, r.path = clean p := by
  obtain ⟨r, hrooted, hparts⟩ := exists_route p
  exact ⟨r, by rw [Route.path, hrooted, hparts, clean]⟩

/-- More text behind a path is one part after another behind its parts. -/
theorem clean_append {p : Text} (hp : p ≠ []) (t : Text) : clean (p ++ slash :: t) =
    ofParts (isAbsolute p)
      ((t.split slash).foldl (push (isAbsolute p)) (parts p).reverse).reverse := by
  have habsolute : isAbsolute (p ++ slash :: t) = isAbsolute p := by
    obtain ⟨b, s, rfl⟩ := List.exists_cons_of_ne_nil hp
    rfl
  rw [clean, parts, habsolute, Text.split_append_cons, List.foldl_append, parts,
    List.reverse_reverse]

namespace Route

variable (r : Route) {n : Text} (hn : IsProper n)

theorem clean_path : clean r.path = r.path := by
  rw [clean, r.isAbsolute_path, r.parts_path, path]

theorem clean_append (t : Text) : clean (r.path ++ slash :: t) =
    ofParts r.rooted ((t.split slash).foldl (push r.rooted) r.parts.reverse).reverse := by
  rw [Path.clean_append r.path_ne_nil, r.isAbsolute_path, r.parts_path]

theorem clean_slash : clean (r.path ++ [slash]) = r.path := by
  have hskip : push r.rooted r.parts.reverse [] = r.parts.reverse := by simp [push]
  rw [clean_append, Text.split, List.foldl_cons, List.foldl_nil, hskip, List.reverse_reverse, path]

theorem join_child : join r.path n = (r.child hn).path := by
  have hsplit : n.split slash = [n] := Text.split_of_notMem hn.notMem
  rw [join, if_neg r.path_ne_nil, if_neg hn.ne_nil, List.append_assoc, List.singleton_append,
    clean_append, hsplit, foldl_push_names (List.forall_mem_singleton.2 hn)]
  simp [path]

end Route

/-- A name behind a path stands in one directory, whatever the name is. -/
theorem exists_join (p : Text) : ∃ d : Route, ∀ (n : Text) (hn : IsProper n),
    join p n = (d.child hn).path := by
  by_cases hp : p = []
  · refine ⟨⟨false, 0, [], by rintro ⟨⟩, by simp⟩, fun n hn => ?_⟩
    rw [join, if_pos hp, if_neg hn.ne_nil, ← Route.clean_path]
    rfl
  · obtain ⟨d, hrooted, hparts⟩ := exists_route p
    refine ⟨d, fun n hn => ?_⟩
    have hsplit : n.split slash = [n] := Text.split_of_notMem hn.notMem
    rw [join, if_neg hp, if_neg hn.ne_nil, List.append_assoc, List.singleton_append,
      clean_append hp, hsplit, Route.foldl_push_names (List.forall_mem_singleton.2 hn)]
    simp [Route.path, hrooted, hparts]

namespace Route

variable (r : Route) {n : Text} (hn : IsProper n)

/-- The text of a path with one part more. -/
theorem path_concat {r r' : Route} {n : Text} (hrooted : r'.rooted = r.rooted)
    (hparts : r'.parts = r.parts ++ [n]) : r'.path =
      (if r.parts = [] then (if r.rooted then [slash] else []) else r.path ++ [slash]) ++ n := by
  rw [path, path, ofParts, ofParts, hparts, hrooted]
  by_cases hp : r.parts = []
  · rw [hp]
    cases r.rooted <;> rfl
  · rw [if_neg hp, if_neg hp, Text.join_concat hp]
    cases r.rooted <;> simp

/-- Looking for the last slash from behind skips the last part. -/
theorem dropWhile_last {n : Text} (hn : slash ∉ n) (s : Text) :
    (s ++ n).reverse.dropWhile (· ≠ slash) = s.reverse.dropWhile (· ≠ slash) := by
  rw [List.reverse_append, List.dropWhile_append_of_pos]
  intro b hb
  have hne : b ≠ slash := fun h => hn (h ▸ List.mem_reverse.1 hb)
  exact decide_eq_true hne

theorem directory_concat {r r' : Route} {n : Text} (hrooted : r'.rooted = r.rooted)
    (hparts : r'.parts = r.parts ++ [n]) : directory r'.path = r.path := by
  have hn : slash ∉ n := r'.notMem_parts n (hparts ▸ List.mem_append_right _ List.mem_cons_self)
  rw [directory, path_concat hrooted hparts, dropWhile_last hn]
  by_cases hp : r.parts = []
  · rw [if_pos hp, path, hp]
    cases r.rooted <;> decide
  · rw [if_neg hp, List.reverse_concat, List.dropWhile_cons_of_neg (by simp), List.reverse_cons,
      List.reverse_reverse, clean_slash]

theorem directory_child : directory (r.child hn).path = r.path :=
  directory_concat rfl (r.parts_child hn)

/-- Without a name at the end a path is no more than a way up, and so is its directory. -/
theorem exists_directory (hr : r.names = []) :
    ∃ d : Route, d.names = [] ∧ directory r.path = d.path := by
  cases hup : r.up with
  | zero =>
    refine ⟨r, hr, ?_⟩
    rw [path, parts, hup, hr]
    cases r.rooted <;> decide
  | succ m =>
    have hrooted : r.rooted = false := by
      by_contra h
      have := r.up_eq_zero (eq_true_of_ne_false h)
      omega
    let d : Route := ⟨false, m, [], by rintro ⟨⟩, by simp⟩
    have hparts : r.parts = d.parts ++ [parent] := by
      rw [parts, parts, hup, hr, List.append_nil, List.append_nil, List.replicate_succ']
    exact ⟨d, rfl, directory_concat hrooted hparts⟩

theorem above?_child : above? (r.child hn).path = if r.parts = [] then none else some r.path := by
  have hend : (r.child hn).path.reverse.dropWhile (· = slash) = (r.child hn).path.reverse := by
    obtain ⟨b, t, hbt⟩ := List.exists_cons_of_ne_nil (List.reverse_ne_nil_iff.2 hn.ne_nil)
    have hb : b ≠ slash := by
      rintro rfl
      exact hn.notMem (List.mem_reverse.1 (hbt ▸ List.mem_cons_self))
    rw [path_concat (r.rooted_child hn) (r.parts_child hn), List.reverse_append, hbt,
      List.cons_append, List.dropWhile_cons_of_neg (by simpa using hb)]
  rw [above?, hend, path_concat (r.rooted_child hn) (r.parts_child hn), dropWhile_last hn.notMem]
  by_cases hp : r.parts = []
  · rw [if_pos hp, if_pos hp]
    cases r.rooted <;> decide
  · rw [if_neg hp, if_neg hp, List.reverse_concat, List.dropWhile_cons_of_neg (by simp),
      List.tail_cons, List.reverse_reverse]
    obtain ⟨b, t, hbt⟩ := List.exists_cons_of_ne_nil r.path_ne_nil
    rw [hbt]

end Route

theorem length_above? {p q : Text} (h : above? p = some q) : q.length < p.length := by
  rw [above?] at h
  have hdrop : ((p.reverse.dropWhile (· = slash)).dropWhile (· ≠ slash)).length ≤ p.length := by
    have houter := ((p.reverse.dropWhile (· = slash)).dropWhile_sublist (· ≠ slash)).length_le
    have hinner := (p.reverse.dropWhile_sublist (· = slash)).length_le
    rw [List.length_reverse] at hinner
    exact Nat.le_trans houter hinner
  generalize (p.reverse.dropWhile (· = slash)).dropWhile (· ≠ slash) = s at h hdrop
  cases s with
  | nil => cases h
  | cons b s =>
    rw [List.tail_cons] at h
    cases hs : s.reverse with
    | nil => rw [hs] at h; cases h
    | cons c t =>
      rw [hs] at h
      obtain rfl := Option.some.inj h
      have hlength := congrArg List.length hs
      rw [List.length_reverse] at hlength
      rw [List.length_cons] at hdrop
      omega

/-- There is enough fuel to reach the topmost directory. -/
theorem chain_eq {m n : Nat} {p : Text} (hm : p.length ≤ m) (hn : p.length ≤ n) :
    chain m p = chain n p := by
  induction m generalizing n p with
  | zero =>
    obtain rfl : p = [] := List.length_eq_zero_iff.1 (by omega)
    cases n <;> rfl
  | succ m ih =>
    cases n with
    | zero =>
      obtain rfl : p = [] := List.length_eq_zero_iff.1 (by omega)
      rfl
    | succ n =>
      rw [chain, chain]
      cases hp : above? p with
      | none => rfl
      | some q =>
        have hq := length_above? hp
        have ih : chain m q = chain n q := ih (by omega) (by omega)
        simp only [ih]

theorem ancestors_eq (p : Text) : ancestors p = match above? p with
    | none => [p]
    | some q => p :: ancestors q := by
  cases hp : above? p with
  | none =>
    rw [ancestors]
    cases p.length with
    | zero => rfl
    | succ n => rw [chain, hp]
  | some q =>
    have hq := length_above? hp
    obtain ⟨n, hn⟩ := Nat.exists_eq_add_of_lt (Nat.zero_lt_of_lt hq)
    have hfuel : chain n q = chain q.length q := chain_eq (by omega) (Nat.le_refl _)
    simp only [ancestors, hn, Nat.zero_add, chain, hp, hfuel]

/-- **The directories above a path** end at the first name, or go on above the parents. -/
theorem Route.ancestors_child (r : Route) {n : Text} (hn : IsProper n) :
    ancestors (r.child hn).path =
      (r.child hn).path :: if r.parts = [] then [] else ancestors r.path := by
  rw [ancestors_eq, above?_child]
  by_cases hp : r.parts = []
  · rw [if_pos hp, if_pos hp]
  · rw [if_neg hp, if_neg hp]

end Path

end StumpGen
