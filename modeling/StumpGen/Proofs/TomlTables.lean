import StumpGen.Proofs.Label
import StumpGen.Proofs.TomlLines
import Mathlib.Data.List.Forall2

/-!
# Tables that are built line by line

While lines are read, the table that is being built is the last one of a list, in a table that is
the last one of a list itself, and so on up to the root.  `Toml.Frame` is one step of that way and
`Toml.nest` puts a table into such frames, so that each step of the builder can be stated as a
change of the innermost table, all around it staying as it is.

* `Toml.alter_nest`: changing what is found at the end of the way changes the innermost table only.
* `Toml.Builder.add_field`, `Toml.Builder.add_item`: what one line does.
* `Toml.Adds`: some lines add one table to a list, wherever the list stands.
* `Toml.Adds.all`: lines that add one table after the other add all of them.
* `Toml.adds_record`: the lines of a record, with those of its smaller records, add one table.
-/

namespace StumpGen

namespace Toml

/-! ### Tables -/

namespace Table

variable {own : Table} {k : Text}

theorem get?_append (h : k ∉ own.map Prod.fst) (t : Table) :
    Table.get? (own ++ t) k = Table.get? t k := by
  rw [get?, get?, List.lookup_append, Text.lookup_eq_none_iff.2 h, Option.none_or]

theorem set_of_notMem (h : k ∉ own.map Prod.fst) (v : Node) : own.set k v = own ++ [(k, v)] := by
  have hany : (own.any fun e => e.1 = k) = false := by
    simp only [List.any_eq_false, decide_eq_true_eq]
    exact fun e he hk => h (hk ▸ List.mem_map_of_mem he)
  rw [set, hany]
  simp

theorem set_append (h : k ∉ own.map Prod.fst) (v w : Node) :
    Table.set (own ++ [(k, v)]) k w = own ++ [(k, w)] := by
  have hown : (own.map fun e => if e.1 = k then (k, w) else e) = own := by
    refine (List.map_congr_left fun e he => if_neg fun hk => ?_).trans (List.map_id' own)
    exact h (hk ▸ List.mem_map_of_mem he)
  rw [set, if_pos (by simp), List.map_append, hown]
  simp

end Table

/-- The tables around one that is being built. -/
structure Frame where
  /-- The keys of the table around it, but the one that leads to it. -/
  own : Table
  /-- The key that leads to it. -/
  key : Text
  /-- The earlier tables of its list, the latest first. -/
  older : List Table
  key_notMem : key ∉ own.map Prod.fst

/-- A table within frames, the outermost first. -/
def nest : List Frame → Table → Table
  | [], t => t
  | f :: fs, t => f.own ++ [(f.key, .tables (nest fs t :: f.older))]

/-- The way through frames. -/
def way (fs : List Frame) : Key := fs.map Frame.key

theorem way_cons (f : Frame) (fs : List Frame) : way (f :: fs) = f.key :: way fs := rfl

theorem nest_append (fs : List Frame) (f : Frame) (t : Table) :
    nest (fs ++ [f]) t = nest fs (f.own ++ [(f.key, .tables (t :: f.older))]) := by
  induction fs with
  | nil => rfl
  | cons g fs ih => rw [List.cons_append, nest, ih, nest]

theorem get?_nest (f : Frame) (fs : List Frame) (t : Table) :
    (nest (f :: fs) t).get? f.key = some (.tables (nest fs t :: f.older)) := by
  rw [nest, Table.get?_append f.key_notMem]
  simp [Table.get?]

theorem alter_nest (g : Table → Option Table) (fs : List Frame) (t : Table) :
    (nest fs t).alter g (way fs) = (g t).map (nest fs) := by
  induction fs with
  | nil => simp [way, nest, Table.alter]
  | cons f fs ih =>
    have hset (u : Table) : (nest (f :: fs) t).set f.key (.tables (nest fs u :: f.older)) =
        nest (f :: fs) u := Table.set_append f.key_notMem _ _
    rw [way_cons, Table.alter, get?_nest]
    simp only [ih, Option.map_map]
    exact congrArg (fun h => (g t).map h) (funext hset)

theorem blocked?_nest (fs : List Frame) (t : Table) : (nest fs t).blocked? (way fs) = none := by
  induction fs with
  | nil => rfl
  | cons f fs ih =>
    rw [way_cons, Table.blocked?, get?_nest]
    simp only [ih, Option.map_none]

theorem find?_nest (fs : List Frame) (t : Table) (k : Text) :
    (nest fs t).find? (way fs ++ [k]) = t.get? k := by
  induction fs with
  | nil => rfl
  | cons f fs ih =>
    have hne : way fs ++ [k] ≠ [] := by simp
    rw [way_cons, List.cons_append, Table.find?, get?_nest]
    · exact ih
    · exact hne

/-- A list of tables under a key, the latest first; a list without tables is not there. -/
def branch (k : Text) (ts : List Table) : Table := if ts = [] then [] else [(k, .tables ts)]

/-! ### Steps -/

/-- As it stands in a table. -/
def Written.node : Written → Node
  | .one t => .string t
  | .many ts => .array (ts.map .string)

namespace Builder

theorem root_setKind (b : Builder) (context : Key) (last : Text) (isArray : Bool) :
    (b.setKind context last isArray).root = b.root := by
  cases isArray <;> rfl

theorem keys_setKind (b : Builder) (context : Key) (last : Text) (isArray : Bool) :
    (b.setKind context last isArray).keys = b.keys := by
  cases isArray <;> rfl

theorem root_imply (b : Builder) (k : Key) :
    (b.imply k).root = b.root ∧ (b.imply k).keys = b.keys := by
  unfold imply
  split <;> exact ⟨rfl, rfl⟩

theorem root_foldl_imply (b : Builder) (ks : List Key) :
    (ks.foldl imply b).root = b.root ∧ (ks.foldl imply b).keys = b.keys := by
  induction ks generalizing b with
  | nil => exact ⟨rfl, rfl⟩
  | cons k ks ih =>
    rw [List.foldl_cons, (ih _).1, (ih _).2]
    exact root_imply b k

theorem items_strings (context : Key) (last : Text) (b : Builder) (ts : List Text) :
    items context last b (ts.map .string) = .ok (b, ts.map .string) := by
  induction ts with
  | nil => rfl
  | cons t ts ih => simp [items, value, ih, bind, Except.bind, pure, Except.pure]

theorem value_written (context : Key) (last : Text) (b : Builder) (w : Written) :
    ∃ b', value context last false b w.value = .ok (b', w.node) ∧ b'.root = b.root ∧
      b'.keys = b.keys := by
  cases w with
  | one t => exact ⟨b, rfl, rfl, rfl⟩
  | many ts =>
    refine ⟨b.setKind context last true, ?_, root_setKind .., keys_setKind ..⟩
    simp [Written.value, value, items_strings, Written.node, bind, Except.bind, pure, Except.pure]

variable {b : Builder} {fs : List Frame} {t : Table}

theorem assign_new (hroot : b.root = nest fs t) {k : Text} (hk : k ∉ t.map Prod.fst) (v : Node) :
    b.assign (way fs) k v = .ok { b with root := nest fs (t ++ [(k, v)]) } := by
  have hfind : (b.root.find? (way fs ++ [k])).isNone = true := by
    rw [hroot, find?_nest, Option.isNone_iff_eq_none]
    exact Text.lookup_eq_none_iff.2 hk
  simp only [assign, hfind, ↓reduceIte]
  rw [hroot, blocked?_nest, alter_nest, Table.set_of_notMem hk]
  rfl

theorem define_new (hroot : b.root = nest fs t) {k : Text} (hk : k ∉ t.map Prod.fst) (w : Written) :
    ∃ b', b.define (way fs) [k] w.value = .ok b' ∧ b'.root = nest fs (t ++ [(k, w.node)]) ∧
      b'.keys = (way fs ++ [k]) :: b.keys := by
  obtain ⟨b₁, hv, hr, hks⟩ := value_written (way fs) k
    { b with keys := (way fs ++ [k]) :: b.keys } w
  have ha := assign_new (b := b₁) (hr.trans hroot) hk w.node
  -- the kind that is noted depends on the value
  have hdefine : ∃ isArray, b.define (way fs) [k] w.value =
      .ok (setKind { b₁ with root := nest fs (t ++ [(k, w.node)]) } (way fs) k isArray) := by
    simp only [define, List.getLast?_singleton, Option.getD_some, List.dropLast_singleton,
      List.append_nil, openParts, hv, ha, bind, Except.bind, pure, Except.pure]
    exact ⟨_, rfl⟩
  obtain ⟨isArray, hdefine⟩ := hdefine
  refine ⟨_, hdefine, ?_, ?_⟩
  · rw [root_setKind]
  · rw [keys_setKind]
    exact hks

/-- A line that defines a new key of the table that is being built. -/
theorem add_field (hroot : b.root = nest fs t) {depth : Nat} {k : String} {w : Written} {l : Line}
    (hl : (Entry.field depth k w).Reads l) (hk : (k : Text) ∉ t.map Prod.fst) :
    ∃ b' : Builder, (∀ ls, b.add (way fs) (l :: ls) = b'.add (way fs) ls) ∧
      b'.root = nest fs (t ++ [((k : Text), w.node)]) ∧
      b'.keys = (way fs ++ [(k : Text)]) :: b.keys := by
  cases hl with
  | @field _ _ _ n =>
    obtain ⟨b', hb, hr, hks⟩ := define_new (b := { b with place := n }) hroot hk w
    refine ⟨b', fun ls => ?_, hr, hks⟩
    simp only [add, hb, bind, Except.bind]

theorem openTable_item {k : Text} {us : List Table} (hk : k ∉ t.map Prod.fst)
    (hroot : b.root = nest fs (t ++ branch k us)) :
    ∃ b', b.openTable (way fs ++ [k]) true = .ok b' ∧
      b'.root = nest (fs ++ [⟨t, k, us, hk⟩]) [] ∧ b'.keys = b.keys := by
  generalize hm : (ways (way fs ++ [k])).filter (fun w => (b.root.find? w).isNone) = missing
  obtain ⟨hr, hks⟩ := root_foldl_imply b missing
  rw [hroot] at hr
  -- the list is there exactly if it has a table
  have hget : Table.get? (t ++ branch k us) k = if us = [] then none else some (.tables us) := by
    rw [Table.get?_append hk, branch]
    split <;> simp [Table.get?]
  have hset : Table.set (t ++ branch k us) k (.tables ([] :: us)) =
      t ++ [(k, .tables ([] :: us))] := by
    by_cases hus : us = []
    · simp only [branch, hus, ↓reduceIte, List.append_nil]
      exact Table.set_of_notMem hk _
    · simp only [branch, hus, ↓reduceIte]
      exact Table.set_append hk _ _
  refine ⟨{ missing.foldl imply b with root := nest (fs ++ [⟨t, k, us, hk⟩]) [] }, ?_, rfl, hks⟩
  simp only [openTable, List.dropLast_concat, List.getLast?_concat, Option.getD_some, hm, hr,
    blocked?_nest, alter_nest, ↓reduceIte, hget]
  by_cases hus : us = []
  · subst hus
    simp only [↓reduceIte, hset, Option.map_some, nest_append]
    rfl
  · simp only [hus, ↓reduceIte, hset, Option.map_some, nest_append]
    rfl

/-- A line that opens a further table of a list. -/
theorem add_item {k : Text} {us : List Table} (hk : k ∉ t.map Prod.fst)
    (hroot : b.root = nest fs (t ++ branch k us)) {gap : Bool} {path : List String}
    (hpath : path.map Text.ofString = way fs ++ [k]) {l : Line} (hl : (Entry.item gap path).Reads l)
    (c : Key) :
    ∃ b' : Builder, (∀ ls, b.add c (l :: ls) = b'.add (way fs ++ [k]) ls) ∧
      b'.root = nest (fs ++ [⟨t, k, us, hk⟩]) [] ∧ b'.keys = (way fs ++ [k]) :: b.keys := by
  cases hl with
  | @item _ _ n =>
    rw [hpath]
    obtain ⟨b₁, hb, hr, hks⟩ := openTable_item (b := { b with place := n }) hk hroot
    refine ⟨Builder.setKind { b₁ with keys := (way fs ++ [k]) :: b₁.keys } (way fs ++ [k]) [] false,
      fun ls => ?_, ?_, ?_⟩
    · simp only [add, enter, hb, bind, Except.bind, pure, Except.pure]
    · rw [root_setKind]
      exact hr
    · rw [keys_setKind]
      exact congrArg _ hks

end Builder

/-! ### Records -/

/-- The lines of fields. -/
def fieldEntries (depth : Nat) (fields : List (String × Written)) : List Entry :=
  fields.map fun (k, w) => .field depth k w

/-- The fields in a table. -/
def fieldNodes (fields : List (String × Written)) : Table :=
  fields.map fun (k, w) => ((k : Text), w.node)

/-- The keys of fields of the table `p`. -/
def fieldKeys (p : Key) (fields : List (String × Written)) : List Key :=
  fields.map fun (k, _) => p ++ [(k : Text)]

/-- The names of fields. -/
def fieldNames (fields : List (String × Written)) : List Text :=
  fields.map fun (k, _) => (k : Text)

theorem map_fst_fieldNodes (fields : List (String × Written)) :
    (fieldNodes fields).map Prod.fst = fieldNames fields := by
  simp [fieldNodes, fieldNames]

theorem add_fields {fields : List (String × Written)} (hnodup : (fieldNames fields).Nodup)
    {fs : List Frame} {t : Table} (hnew : ∀ k ∈ fieldNames fields, k ∉ t.map Prod.fst) {b : Builder}
    (hroot : b.root = nest fs t) {depth : Nat} {ls : List Line}
    (hls : List.Forall₂ Entry.Reads (fieldEntries depth fields) ls) :
    ∃ b' : Builder, (∀ rest, b.add (way fs) (ls ++ rest) = b'.add (way fs) rest) ∧
      b'.root = nest fs (t ++ fieldNodes fields) ∧
      b'.keys = (fieldKeys (way fs) fields).reverse ++ b.keys := by
  induction fields generalizing t b ls with
  | nil =>
    cases hls
    exact ⟨b, fun _ => rfl, by simpa [fieldNodes] using hroot, rfl⟩
  | cons f fields ih =>
    obtain ⟨k, w⟩ := f
    cases hls with
    | cons hl hls =>
      obtain ⟨hkn, hkt⟩ := List.nodup_cons.1 hnodup
      obtain ⟨hk, hks⟩ := List.forall_mem_cons.1 hnew
      obtain ⟨b₁, hadd₁, hr₁, hkeys₁⟩ := Builder.add_field hroot hl hk
      -- the first key is in the table now, and differs from the ones that follow
      obtain ⟨b₂, hadd₂, hr₂, hkeys₂⟩ := ih hkt (fun k' hk' => by
        rw [List.map_append, List.mem_append, not_or]
        refine ⟨hks k' hk', fun hm => ?_⟩
        obtain rfl := List.mem_singleton.1 hm
        exact hkn hk') hr₁ hls
      refine ⟨b₂, fun rest => ?_, ?_, ?_⟩
      · rw [List.cons_append, hadd₁, hadd₂]
      · rw [hr₂, List.append_assoc]
        rfl
      · rw [hkeys₂, hkeys₁]
        simp [fieldKeys]

/-- The lines `es` add the table `t` to the list `k` of the table `p`, and define the keys `ks`. -/
def Adds (p : Key) (k : Text) (es : List Entry) (t : Table) (ks : List Key) : Prop :=
  ∀ (fs : List Frame), way fs = p → ∀ (own : Table), k ∉ own.map Prod.fst →
    ∀ (us : List Table) (b : Builder), b.root = nest fs (own ++ branch k us) →
    ∀ (c : Key) (ls : List Line), List.Forall₂ Entry.Reads es ls →
      ∃ (b' : Builder) (c' : Key), (∀ rest, b.add c (ls ++ rest) = b'.add c' rest) ∧
        b'.root = nest fs (own ++ branch k (t :: us)) ∧ b'.keys = ks.reverse ++ b.keys

theorem exists_of_forall₂_append {α β : Type} {R : α → β → Prop} {as as' : List α} {bs : List β}
    (h : List.Forall₂ R (as ++ as') bs) :
    ∃ cs cs', bs = cs ++ cs' ∧ List.Forall₂ R as cs ∧ List.Forall₂ R as' cs' :=
  ⟨bs.take as.length, bs.drop as.length, (List.take_append_drop _ _).symm,
    (List.forall₂_take_append bs as as' h.flip).flip,
    (List.forall₂_drop_append bs as as' h.flip).flip⟩

section Adds

variable {α : Type} {entries : α → List Entry} {table : α → Table} {keys : α → List Key} {p : Key}
  {k : Text}

/-- Lines that add one table after the other add all of them. -/
theorem Adds.all {xs : List α} (h : ∀ x ∈ xs, Adds p k (entries x) (table x) (keys x))
    {fs : List Frame} (hfs : way fs = p) {own : Table} (hk : k ∉ own.map Prod.fst) {us : List Table}
    {b : Builder} (hroot : b.root = nest fs (own ++ branch k us)) (c : Key) {ls : List Line}
    (hls : List.Forall₂ Entry.Reads (xs.flatMap entries) ls) :
    ∃ (b' : Builder) (c' : Key), (∀ rest, b.add c (ls ++ rest) = b'.add c' rest) ∧
      b'.root = nest fs (own ++ branch k ((xs.map table).reverse ++ us)) ∧
      b'.keys = (xs.flatMap keys).reverse ++ b.keys := by
  induction xs generalizing us b c ls with
  | nil =>
    cases hls
    exact ⟨b, c, fun _ => rfl, hroot, rfl⟩
  | cons x xs ih =>
    obtain ⟨hx, hxs⟩ := List.forall_mem_cons.1 h
    rw [List.flatMap_cons] at hls
    obtain ⟨ls₁, ls₂, rfl, hls₁, hls₂⟩ := exists_of_forall₂_append hls
    obtain ⟨b₁, c₁, hadd₁, hr₁, hks₁⟩ := hx fs hfs own hk us b hroot c ls₁ hls₁
    obtain ⟨b₂, c₂, hadd₂, hr₂, hks₂⟩ := ih hxs hr₁ c₁ hls₂
    refine ⟨b₂, c₂, fun rest => ?_, ?_, ?_⟩
    · rw [List.append_assoc, hadd₁, hadd₂]
    · rw [hr₂]
      simp
    · rw [hks₂, hks₁]
      simp

/-- **A record adds a table**: its fields, and the tables of its smaller records. -/
theorem adds_record {path : List String} (hpath : path.map Text.ofString = p ++ [k])
    {fields : List (String × Written)} (hnodup : (fieldNames fields).Nodup) {nested : Text}
    (hnested : nested ∉ fieldNames fields) {xs : List α}
    (hxs : ∀ x ∈ xs, Adds (p ++ [k]) nested (entries x) (table x) (keys x)) (gap : Bool)
    (depth : Nat) :
    Adds p k (.item gap path :: fieldEntries depth fields ++ xs.flatMap entries)
      (fieldNodes fields ++ branch nested (xs.map table).reverse)
      ((p ++ [k]) :: fieldKeys (p ++ [k]) fields ++ xs.flatMap keys) := by
  intro fs hfs own hk us b hroot c ls hls
  subst hfs
  cases hls with
  | cons hl hls =>
    obtain ⟨ls₁, ls₂, rfl, hls₁, hls₂⟩ := exists_of_forall₂_append hls
    -- the first line opens an empty table, one frame deeper
    obtain ⟨b₁, hadd₁, hr₁, hks₁⟩ := Builder.add_item hk hroot hpath hl c
    have hway : way (fs ++ [⟨own, k, us, hk⟩]) = way fs ++ [k] := by simp [way]
    obtain ⟨b₂, hadd₂, hr₂, hks₂⟩ := add_fields hnodup (by simp) hr₁ hls₁
    have hr₂ :
        b₂.root = nest (fs ++ [⟨own, k, us, hk⟩]) (fieldNodes fields ++ branch nested []) := by
      simpa [branch] using hr₂
    obtain ⟨b₃, c₃, hadd₃, hr₃, hks₃⟩ := Adds.all hxs hway (by rwa [map_fst_fieldNodes]) hr₂
      (way fs ++ [k]) hls₂
    rw [hway] at hadd₂ hks₂
    refine ⟨b₃, c₃, fun rest => ?_, ?_, ?_⟩
    · rw [List.cons_append, hadd₁, List.append_assoc, hadd₂, hadd₃]
    · rw [hr₃, nest_append]
      simp [branch]
    · rw [hks₃, hks₂, hks₁]
      simp

end Adds

end Toml

end StumpGen
