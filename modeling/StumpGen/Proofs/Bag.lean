import StumpGen.Diagnostic.Bag
import Mathlib.Data.List.Lex
import Mathlib.Data.List.Nodup
import Mathlib.Data.Prod.Lex
import Mathlib.Order.MinMax

/-!
# The limit and the order of a bag

A bag refuses diagnostics once it is full, but merging keeps all of them and raises the limit
instead.  The limit has 16 bits, so it cannot be raised past 65535.

* `Bag.Built` : the bags that can come into being.
* `Bag.Built.size_le_limit_iff` : **a bag holds more than its limit exactly if it holds more than
  65535 diagnostics**; the limit is then as large as it can be.
* `Bag.size_gt_limit_crowded` : this does happen.

A bag is sorted by file, element and statement, the graver diagnostics of a place first, then by
code.  `Diagnostic.rank` puts these five into one value of a linear order.

* `Bag.inOrder_iff` : two diagnostics are in order exactly if their ranks are.
* `Bag.sort_canonical` : **sorting gives the one list that is ordered by rank and keeps the order of
  diagnostics with the same rank**.  If all ranks differ, it does not matter in which order the
  diagnostics came.
-/

namespace StumpGen

namespace Bag

variable {b c : Bag}

/-! ### How many diagnostics a bag holds -/

theorem items_addAll (b : Bag) (ds : List Diagnostic) :
    (b.addAll ds).items = b.items ++ ds.take (b.limit.toNat - b.size) := rfl

/-- To add diagnostics together is to add them one by one. -/
theorem addAll_eq_foldl (b : Bag) (ds : List Diagnostic) : b.addAll ds = ds.foldl add b := by
  induction ds generalizing b with
  | nil => simp [addAll]
  | cons d ds ih =>
    rw [List.foldl_cons, ← ih]
    by_cases hfull : b.limit.toNat ≤ b.size
    · have hadd : b.add d = b := by simp [add, isFull, hfull]
      have hroom : b.limit.toNat - b.size = 0 := by omega
      rw [hadd, addAll, addAll, hroom, List.take_zero, List.take_zero]
    · have hadd : b.add d = { b with items := b.items ++ [d] } := by simp [add, isFull, hfull]
      have hroom : b.limit.toNat - b.size = b.limit.toNat - (b.size + 1) + 1 := by omega
      rw [hadd, addAll, hroom, List.take_succ_cons]
      simp [addAll, size]

theorem toNat_limitOf (max : Int) :
    (limitOf max).toNat = if 0 < max ∧ max ≤ 0xFFFF then max.toNat else 0xFFFF := by
  unfold limitOf
  split
  · rename_i h
    have hlt : max.toNat < UInt16.size := by
      simp only [UInt16.size]
      omega
    exact UInt16.toNat_ofNat_of_lt' hlt
  · rfl

theorem toNat_limit_le (b : Bag) : b.limit.toNat ≤ 0xFFFF := Nat.le_of_lt_succ b.limit.toNat_lt

@[simp] theorem limit_add (b : Bag) (d : Diagnostic) : (b.add d).limit = b.limit := by
  rw [add]
  split <;> rfl

/-- Adding takes no bag past its limit. -/
theorem size_add_le (b : Bag) (d : Diagnostic) : (b.add d).size ≤ max b.size b.limit.toNat := by
  rw [add, isFull]
  split
  · exact le_max_left _ _
  · rename_i hroom
    simp only [decide_eq_true_eq, not_le] at hroom
    simp only [size, List.length_append, List.length_singleton] at hroom ⊢
    exact le_max_of_le_right hroom

@[simp] theorem size_merge (b c : Bag) : (b.merge c).size = b.size + c.size :=
  List.length_append

/-- Merging raises the limit to the new size, as far as 16 bits allow. -/
theorem toNat_limit_merge (b c : Bag) :
    (b.merge c).limit.toNat = max b.limit.toNat (min (b.size + c.size) 0xFFFF) := by
  have hle := b.toNat_limit_le
  simp only [merge]
  split
  · have hfits : min (b.size + c.size) 0xFFFF < UInt16.size := by
      simp only [UInt16.size]
      omega
    have hto : (min (b.size + c.size) 0xFFFF).toUInt16.toNat = min (b.size + c.size) 0xFFFF :=
      UInt16.toNat_ofNat_of_lt' hfits
    omega
  · omega

@[simp] theorem size_sort (b : Bag) : b.sort.size = b.size := List.length_mergeSort b.items

theorem firsts_sublist (seen : List Text) (ds : List Diagnostic) :
    (firsts seen ds).Sublist ds := by
  induction ds generalizing seen with
  | nil => exact .slnil
  | cons d ds ih =>
    rw [firsts]
    split
    · exact (ih seen).cons d
    · exact (ih _).cons_cons d

theorem size_dedup_le (b : Bag) : b.dedup.size ≤ b.size := (firsts_sublist [] b.items).length_le

/-- The bags that can come into being: new ones for any number of diagnostics, and what becomes of
them when diagnostics are added, other such bags are merged in, or the bag is sorted or freed of
duplicates. -/
inductive Built : Bag → Prop
  /-- A new bag. -/
  | empty (max : Int) : Built (empty max)
  /-- A diagnostic is added. -/
  | add {b : Bag} (d : Diagnostic) : Built b → Built (b.add d)
  /-- Another bag is merged in. -/
  | merge {b c : Bag} : Built b → Built c → Built (b.merge c)
  /-- The bag is sorted. -/
  | sort {b : Bag} : Built b → Built b.sort
  /-- Duplicates are taken out. -/
  | dedup {b : Bag} : Built b → Built b.dedup

theorem Built.addAll (h : Built b) (ds : List Diagnostic) : Built (b.addAll ds) := by
  rw [addAll_eq_foldl]
  induction ds generalizing b with
  | nil => exact h
  | cons d ds ih => exact ih (h.add d)

/-- The limit of a bag covers its size, as far as 16 bits can tell. -/
theorem Built.min_size_le (h : Built b) : min b.size 0xFFFF ≤ b.limit.toNat := by
  induction h with
  | empty max => exact Nat.zero_le _
  | @add b d _ ih =>
    have hadd := b.size_add_le d
    have hle := b.toNat_limit_le
    rw [limit_add]
    omega
  | @merge b c _ _ ihb _ =>
    rw [size_merge, toNat_limit_merge]
    exact le_max_right _ _
  | @sort b _ ih =>
    rw [size_sort]
    exact ih
  | @dedup b _ ih => exact le_trans (min_le_min_right _ b.size_dedup_le) ih

/-- **Which bags hold more than their limit.**  A bag holds no more than its limit exactly if it
holds no more than 65535 diagnostics; otherwise its limit is 65535.  Merging keeps the diagnostics
of both bags, so it leads past the limit exactly if these are more than 65535. -/
theorem Built.size_le_limit_iff (h : Built b) :
    (b.size ≤ b.limit.toNat ↔ b.size ≤ 0xFFFF) ∧ (0xFFFF < b.size → b.limit = 0xFFFF) ∧
      ∀ c, Built c → (b.merge c).items = b.items ++ c.items ∧
        ((b.merge c).size ≤ (b.merge c).limit.toNat ↔ b.size + c.size ≤ 0xFFFF) := by
  have within {b : Bag} (h : Built b) : b.size ≤ b.limit.toNat ↔ b.size ≤ 0xFFFF := by
    have hmin := h.min_size_le
    have hle := b.toNat_limit_le
    omega
  refine ⟨within h, fun hgt => ?_, fun c hc => ⟨rfl, ?_⟩⟩
  · have hmin := h.min_size_le
    have hle := b.toNat_limit_le
    have hlimit : b.limit.toNat = 0xFFFF := by omega
    exact UInt16.toNat_inj.1 hlimit
  · rw [within (h.merge hc), size_merge]

/-- A diagnostic that says nothing. -/
def silence : Diagnostic := { severity := .info, code := .unknown, message := [] }

/-- A bag with one diagnostic, into which a full one was merged. -/
def crowded : Bag :=
  ((empty 0).add silence).merge ((empty 0).addAll (List.replicate 0xFFFF silence))

theorem built_crowded : Built crowded := .merge (.add _ (.empty 0)) (.addAll (.empty 0) _)

theorem size_crowded : crowded.size = 0x10000 := by
  have hone : ((empty 0).add silence).size = 1 := by decide
  have hlimit : (empty 0).limit.toNat - (empty 0).size = 0xFFFF := by decide
  have hfull : ((empty 0).addAll (List.replicate 0xFFFF silence)).size = 0xFFFF := by
    rw [size, items_addAll, hlimit, List.take_replicate, List.length_append,
      List.length_replicate]
    rfl
  rw [crowded, size_merge, hone, hfull]

/-- A bag that holds more than its limit. -/
theorem size_gt_limit_crowded : Built crowded ∧ crowded.limit.toNat < crowded.size := by
  refine ⟨built_crowded, ?_⟩
  rw [size_crowded]
  exact Nat.lt_succ_of_le crowded.toNat_limit_le

/-- Its limit is the largest one. -/
theorem size_le_limit_iff_crowded :
    Built crowded ∧ 0xFFFF < crowded.size ∧ crowded.limit = 0xFFFF := by
  have hsize : 0xFFFF < crowded.size := by
    rw [size_crowded]
    decide
  exact ⟨built_crowded, hsize, (built_crowded.size_le_limit_iff).2.1 hsize⟩

end Bag

/-! ### What a bag is sorted by -/

open OrderDual

/-- The values that diagnostics are sorted by: file, element, statement, severity and code, each of
them deciding where all before it are equal.  Texts are compared byte by byte, and the graver
severity comes first. -/
abbrev Rank := List ℕ ×ₗ List ℕ ×ₗ ℤ ×ₗ ℕᵒᵈ ×ₗ ℕ

/-- The rank of a diagnostic. -/
def Diagnostic.rank (d : Diagnostic) : Rank :=
  toLex (d.location.file.map UInt8.toNat,
    toLex (d.location.element.map UInt8.toNat,
      toLex (d.location.statement,
        toLex (toDual d.severity.rank.toNat, d.code.number.toNat))))

namespace Text

theorem map_toNat_inj {s t : Text} : s.map UInt8.toNat = t.map UInt8.toNat ↔ s = t :=
  (List.map_injective_iff.2 fun _ _ => UInt8.toNat_inj.1).eq_iff

theorem map_toNat_lt {s t : Text} : s.map UInt8.toNat < t.map UInt8.toNat ↔ s < t := by
  induction s generalizing t with
  | nil => cases t <;> simp
  | cons a s ih =>
    cases t with
    | nil => simp
    | cons b t =>
      simp only [List.map_cons, List.cons_lt_cons_iff, ih, UInt8.lt_iff_toNat_lt, UInt8.toNat_inj]

end Text

namespace Bag

/-- Two diagnostics are in order exactly if their ranks are. -/
theorem inOrder_iff {d e : Diagnostic} : inOrder d e = true ↔ d.rank ≤ e.rank := by
  have hseverity : d.severity.rank = e.severity.rank ↔ d.severity = e.severity := by
    cases d.severity
    cases e.severity
    simp
  have hirrefl (t : Text) : ¬ t < t := fun h => lt_irrefl _ (Text.map_toNat_lt.2 h)
  simp only [Diagnostic.rank, Prod.Lex.toLex_le_toLex, Text.map_toNat_lt, Text.map_toNat_inj,
    toDual_lt_toDual, toDual_inj, ← UInt8.lt_iff_toNat_lt, UInt8.toNat_inj,
    ← UInt16.le_iff_toNat_le, hseverity]
  rw [inOrder]
  -- the first of the five that differs decides
  by_cases hfile : d.location.file = e.location.file
  · by_cases helement : d.location.element = e.location.element
    · by_cases hstatement : d.location.statement = e.location.statement
      · by_cases hsev : d.severity = e.severity
        · simp [hfile, helement, hstatement, hsev, hirrefl]
        · simp [hfile, helement, hstatement, hsev, hirrefl]
      · simp [hfile, helement, hstatement, hirrefl]
    · simp [hfile, helement, hirrefl]
  · simp [hfile]

theorem inOrder_trans (d e f : Diagnostic) (h : inOrder d e = true) (h' : inOrder e f = true) :
    inOrder d f = true := by
  rw [inOrder_iff] at h h' ⊢
  exact le_trans h h'

theorem inOrder_total (d e : Diagnostic) : (inOrder d e || inOrder e d) = true := by
  rw [Bool.or_eq_true, inOrder_iff, inOrder_iff]
  exact le_total _ _

/-- Diagnostics in the order of their ranks. -/
def Ordered (ds : List Diagnostic) : Prop := ds.Pairwise fun d e => d.rank ≤ e.rank

theorem pairwise_inOrder_iff {ds : List Diagnostic} :
    ds.Pairwise (fun d e => inOrder d e = true) ↔ Ordered ds := by
  simp only [inOrder_iff, Ordered]

/-- The diagnostics of a rank, in the order in which they stand. -/
def ofRank (k : Rank) (ds : List Diagnostic) : List Diagnostic := ds.filter fun d => d.rank = k

theorem mem_ofRank {k : Rank} {ds : List Diagnostic} {d : Diagnostic} :
    d ∈ ofRank k ds ↔ d ∈ ds ∧ d.rank = k := by
  simp [ofRank]

theorem sort_perm (b : Bag) : b.sort.items.Perm b.items := List.mergeSort_perm b.items inOrder

theorem ordered_sort (b : Bag) : Ordered b.sort.items :=
  pairwise_inOrder_iff.1 (List.pairwise_mergeSort inOrder_trans inOrder_total b.items)

/-- Diagnostics with the same rank keep their order. -/
theorem ofRank_sort (b : Bag) (k : Rank) : ofRank k b.sort.items = ofRank k b.items := by
  have hordered : Ordered (ofRank k b.items) := by
    refine List.pairwise_of_forall_mem_list fun d hd e he => ?_
    rw [(mem_ofRank.1 hd).2, (mem_ofRank.1 he).2]
  have hsub : (ofRank k b.items).Sublist b.sort.items :=
    List.sublist_mergeSort inOrder_trans inOrder_total (pairwise_inOrder_iff.2 hordered)
      List.filter_sublist
  have hwithin : (ofRank k b.items).Sublist (ofRank k b.sort.items) := by
    have hfilter := hsub.filter fun d => d.rank = k
    rwa [ofRank, List.filter_filter, funext fun d => Bool.and_self _] at hfilter
  exact (hwithin.eq_of_length (b.sort_perm.filter _).length_eq.symm).symm

/-- Ordered lists that agree on the diagnostics of each rank are the same. -/
theorem Ordered.eq_of_ofRank {ds es : List Diagnostic} (hds : Ordered ds) (hes : Ordered es)
    (h : ∀ k, ofRank k ds = ofRank k es) : ds = es := by
  have hmem {ds es : List Diagnostic} (h : ∀ k, ofRank k ds = ofRank k es) {d : Diagnostic}
      (hd : d ∈ ds) : d ∈ es := by
    have hrank : d ∈ ofRank d.rank ds := mem_ofRank.2 ⟨hd, rfl⟩
    rw [h] at hrank
    exact (mem_ofRank.1 hrank).1
  induction ds generalizing es with
  | nil =>
    cases es with
    | nil => rfl
    | cons e es => exact absurd (hmem (fun k => (h k).symm) List.mem_cons_self) List.not_mem_nil
  | cons d ds ih =>
    cases es with
    | nil => exact absurd (hmem h List.mem_cons_self) List.not_mem_nil
    | cons e es =>
      obtain ⟨hd, hds'⟩ := List.pairwise_cons.1 hds
      obtain ⟨he, hes'⟩ := List.pairwise_cons.1 hes
      have hle {d e : Diagnostic} {es : List Diagnostic} (he : ∀ x ∈ es, e.rank ≤ x.rank)
          (hd : d ∈ e :: es) : e.rank ≤ d.rank := by
        rcases List.mem_cons.1 hd with rfl | hd
        · exact le_rfl
        · exact he d hd
      have hrank : d.rank = e.rank :=
        le_antisymm (hle hd (hmem (fun k => (h k).symm) List.mem_cons_self))
          (hle he (hmem h List.mem_cons_self))
      have hhead := h d.rank
      simp only [ofRank, List.filter_cons, hrank, decide_true, if_true, List.cons.injEq] at hhead
      obtain ⟨rfl, -⟩ := hhead
      congr 1
      refine ih hds' hes' fun k => ?_
      have htail := h k
      simp only [ofRank, List.filter_cons] at htail ⊢
      split at htail
      · exact (List.cons.inj htail).2
      · exact htail

/-- **Sorting gives one canonical order.**  The diagnostics of a sorted bag are those of the bag, in
the order of their ranks, and those of the same rank keep their order; no other list is such.  To
sort again changes nothing.  If the ranks of the diagnostics differ, every bag that holds the same
diagnostics is sorted to the same list. -/
theorem sort_canonical (b : Bag) :
    (b.sort.items.Perm b.items ∧ Ordered b.sort.items ∧
      ∀ k, ofRank k b.sort.items = ofRank k b.items) ∧
    (∀ ds, Ordered ds → (∀ k, ofRank k ds = ofRank k b.items) → ds = b.sort.items) ∧
    b.sort.sort = b.sort ∧
    ∀ c : Bag, c.items.Perm b.items → (b.items.map Diagnostic.rank).Nodup →
      c.sort.items = b.sort.items := by
  refine ⟨⟨b.sort_perm, b.ordered_sort, b.ofRank_sort⟩, fun ds hds h => ?_, ?_,
    fun c hperm hnodup => ?_⟩
  · exact hds.eq_of_ofRank b.ordered_sort fun k => (h k).trans (b.ofRank_sort k).symm
  · have hitems := List.mergeSort_of_pairwise (pairwise_inOrder_iff.2 b.ordered_sort)
    exact congrArg (fun ds => { b with items := ds }) hitems
  · have hsame := c.sort_perm.trans (hperm.trans b.sort_perm.symm)
    refine List.Perm.eq_of_pairwise (fun d e hd he hde hed => ?_) c.ordered_sort b.ordered_sort
      hsame
    exact List.inj_on_of_nodup_map hnodup (hperm.mem_iff.1 (c.sort_perm.mem_iff.1 hd))
      (b.sort_perm.mem_iff.1 he) (le_antisymm hde hed)

/-- Two errors in a function and a warning about another file. -/
def straight : List Diagnostic :=
  [{ severity := .warning, code := .capacityExceeded, message := "warn",
     location := { file := "a" } },
   { severity := .error, code := .arityMismatch, message := "early",
     location := { file := "b", element := "f", statement := 1 } },
   { severity := .error, code := .unknownIdentifier, message := "late",
     location := { file := "b", element := "f", statement := 2 } }]

/-- They are sorted to this list, if they come in the opposite order. -/
theorem sort_canonical_straight :
    straight.reverse.Perm straight ∧ (straight.map Diagnostic.rank).Nodup ∧
      (sort { items := straight.reverse, limit := 3 }).items = straight := by
  have hnodup : (straight.map Diagnostic.rank).Nodup := by decide
  have hsorted : (sort { items := straight, limit := 3 }).items = straight :=
    List.mergeSort_of_pairwise (by decide)
  refine ⟨List.reverse_perm _, hnodup, ?_⟩
  rw [(sort_canonical { items := straight, limit := 3 }).2.2.2
    { items := straight.reverse, limit := 3 } (List.reverse_perm _) hnodup, hsorted]

end Bag

end StumpGen
