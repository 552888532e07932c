import StumpGen.Document.Codec
import StumpGen.Proofs.TomlTables

/-!
# Documents that are written as TOML and read back

The way from a document to its text and back is cut into three parts, each of them for a record
with a list of slots and one list of smaller records, and then for arguments, statements, elements
and documents in turn.

* `Document.text_entries`: the text of a document is the text of its lines (`Document.entries`).
* `Document.parse_toml`: these lines are read as the table of the document (`Document.table`).
* `Document.ofTable_table`: the table gives the document, and no key of it is left over.

All together, `Document.decode_encode_toml` says that a document is read back as it was.  A list
that is not there and an empty list are the same in a document, so nothing is to be said of the
difference.
-/

namespace StumpGen

namespace Document

open Toml (Written Entry fieldEntries fieldNodes fieldKeys fieldNames Adds)

/-! ### What is written -/

section Record

variable {ρ : Type}

/-- All texts of a field. -/
def Slot.texts (s : Slot ρ) (r : ρ) : List Text :=
  match s.access with
  | .one get _ => [get r]
  | .many get _ => get r

/-- What is written for a field. -/
def Slot.written (s : Slot ρ) (r : ρ) : Option Written :=
  match s.access with
  | .one get _ => if get r = [] ∧ ¬ s.always then none else some (.one (get r))
  | .many get _ => if get r = [] then none else some (.many (get r))

/-- What is written for the fields of a record. -/
def fields (slots : List (Slot ρ)) (r : ρ) : List (String × Written) :=
  slots.filterMap fun s => (s.written r).map (s.key, ·)

theorem fields_cons (s : Slot ρ) (slots : List (Slot ρ)) (r : ρ) :
    fields (s :: slots) r = ((s.written r).map (s.key, ·)).toList ++ fields slots r := by
  rw [fields, List.filterMap_cons]
  cases s.written r <;> rfl

theorem Slot.texts_of_written {s : Slot ρ} {r : ρ} {w : Written} (h : s.written r = some w) :
    w.texts = s.texts r := by
  unfold Slot.written at h
  unfold Slot.texts
  split at h <;> split at h <;> cases h <;> simp_all [Written.texts]

theorem text_fieldEntries (depth : Nat) (slots : List (Slot ρ)) (r : ρ) :
    (fieldEntries depth (fields slots r)).flatMap Entry.text =
      slots.flatMap (Slot.toml depth · r) := by
  induction slots with
  | nil => rfl
  | cons s slots ih =>
    have hs : (fieldEntries depth ((s.written r).map (s.key, ·)).toList).flatMap Entry.text =
        s.toml depth r := by
      obtain ⟨key, content, access, always⟩ := s
      cases access with
      | one get set =>
        by_cases h : get r = [] ∧ ¬ always = true
        · simp [Slot.written, Slot.toml, h, fieldEntries]
        · simp only [Slot.written, Slot.toml, h, ↓reduceIte]
          simp [fieldEntries, Entry.text, Written.text]
      | many get set =>
        by_cases h : get r = []
        · simp [Slot.written, Slot.toml, h, fieldEntries]
        · simp [Slot.written, Slot.toml, h, fieldEntries, Entry.text, Written.text]
    rw [fields_cons, List.flatMap_cons, ← ih, ← hs, ← List.flatMap_append]
    simp [fieldEntries]

theorem fieldNames_sublist (slots : List (Slot ρ)) (r : ρ) :
    List.Sublist (fieldNames (fields slots r)) (slots.map fun s => (s.key : Text)) := by
  induction slots with
  | nil => exact .slnil
  | cons s slots ih =>
    rw [fields_cons]
    cases s.written r with
    | none => exact ih.cons _
    | some w => exact ih.cons_cons _

theorem isReadable_fieldEntries {slots : List (Slot ρ)} (hslots : ∀ s ∈ slots, Toml.IsName s.key)
    {r : ρ} (hr : ∀ s ∈ slots, ∀ t ∈ s.texts r, t.IsReadable) (depth : Nat) :
    ∀ e ∈ fieldEntries depth (fields slots r), e.IsReadable := by
  intro e he
  obtain ⟨f, hf, rfl⟩ := List.mem_map.1 he
  obtain ⟨s, hs, hf⟩ := List.mem_filterMap.1 hf
  obtain ⟨w, hw, rfl⟩ := Option.map_eq_some_iff.1 hf
  exact ⟨hslots s hs, by rw [Slot.texts_of_written hw]; exact hr s hs⟩

end Record

/-- The lines of an argument. -/
def Argument.entries (a : Argument) : List Entry :=
  .item true ["element", "body", "args"] :: fieldEntries 3 (fields Argument.slots a)

/-- The lines of a statement. -/
def Statement.entries (s : Statement) : List Entry :=
  .item true ["element", "body"] :: fieldEntries 2 (fields Statement.slots s)
    ++ s.args.flatMap Argument.entries

/-- The lines of an element, with a blank line in front if `gap` is set. -/
def Element.entries (gap : Bool) (e : Element) : List Entry :=
  .item gap ["element"] :: fieldEntries 1 (fields Element.slots e)
    ++ e.body.flatMap Statement.entries

/-- The lines of a document. -/
def entries (d : Document) : List Entry :=
  match d.elements? with
  | none => []
  | some [] => [.field 0 "element" (.many [])]
  | some (e :: es) => e.entries false ++ es.flatMap (Element.entries true)

theorem Argument.text_entries (a : Argument) :
    a.entries.flatMap Entry.text = Text.newline ++ a.toml := by
  rw [entries, List.flatMap_cons, text_fieldEntries]
  simp [Entry.text, toml, recordLines]

theorem Statement.text_entries (s : Statement) :
    s.entries.flatMap Entry.text = Text.newline ++ s.toml := by
  rw [entries, List.flatMap_append, List.flatMap_cons, text_fieldEntries, List.flatMap_assoc]
  simp only [Argument.text_entries]
  simp [Entry.text, toml, recordLines]

theorem Element.text_entries (gap : Bool) (e : Element) :
    (e.entries gap).flatMap Entry.text = (if gap then Text.newline else []) ++ e.toml := by
  rw [entries, List.flatMap_append, List.flatMap_cons, text_fieldEntries, List.flatMap_assoc]
  simp only [Statement.text_entries]
  simp [Entry.text, toml, recordLines]

theorem join_cons (sep t : Text) (ts : List Text) :
    Text.join sep (t :: ts) = t ++ ts.flatMap (sep ++ ·) := by
  induction ts generalizing t with
  | nil => simp [Text.join]
  | cons u ts ih =>
    rw [Text.join, ih, List.flatMap_cons]
    · simp
    · exact nofun

/-- **A document is written line by line.** -/
theorem text_entries (d : Document) : d.entries.flatMap Entry.text = d.toml := by
  obtain ⟨_ | _ | ⟨e, es⟩⟩ := d
  · rfl
  · rfl
  · have hes : (es.flatMap (Element.entries true)).flatMap Entry.text =
        (es.map Element.toml).flatMap (Text.newline ++ ·) := by
      rw [List.flatMap_assoc, List.flatMap_map]
      exact List.flatMap_congr fun e _ => Element.text_entries true e
    have htoml : toml ⟨some (e :: es)⟩ = Text.join Text.newline ((e :: es).map Element.toml) := rfl
    rw [htoml, List.map_cons, join_cons, ← hes]
    simp only [entries, List.flatMap_append, Element.text_entries]
    rfl

/-! ### Which documents can be written -/

/-- All texts of an argument. -/
def Argument.texts (a : Argument) : List Text := Argument.slots.flatMap (·.texts a)

/-- All texts of a statement. -/
def Statement.texts (s : Statement) : List Text :=
  Statement.slots.flatMap (·.texts s) ++ s.args.flatMap Argument.texts

/-- All texts of an element. -/
def Element.texts (e : Element) : List Text :=
  Element.slots.flatMap (·.texts e) ++ e.body.flatMap Statement.texts

/-- All texts of a document. -/
def texts (d : Document) : List Text := d.elements.flatMap Element.texts

theorem isReadable_record {ρ : Type} {slots : List (Slot ρ)}
    (hslots : ∀ s ∈ slots, Toml.IsName s.key) {path : List String} (hne : path ≠ [])
    (hpath : ∀ s ∈ path, Toml.IsName s) {r : ρ}
    (hr : ∀ t ∈ slots.flatMap (·.texts r), t.IsReadable) (gap : Bool) (depth : Nat) :
    ∀ e ∈ .item gap path :: fieldEntries depth (fields slots r), e.IsReadable :=
  List.forall_mem_cons.2 ⟨⟨hne, hpath⟩, isReadable_fieldEntries hslots
    (fun s hs t ht => hr t (List.mem_flatMap.2 ⟨s, hs, ht⟩)) depth⟩

theorem Argument.isReadable_entries {a : Argument} (h : ∀ t ∈ a.texts, t.IsReadable) :
    ∀ e ∈ a.entries, e.IsReadable :=
  isReadable_record (by decide) (by decide) (by decide) h true 3

theorem Statement.isReadable_entries {s : Statement} (h : ∀ t ∈ s.texts, t.IsReadable) :
    ∀ e ∈ s.entries, e.IsReadable := by
  rw [texts, List.forall_mem_append] at h
  refine List.forall_mem_append.2 ⟨isReadable_record (by decide) (by decide) (by decide) h.1 true 2,
    List.forall_mem_flatMap.2 fun a ha => Argument.isReadable_entries fun t ht => ?_⟩
  exact h.2 t (List.mem_flatMap.2 ⟨a, ha, ht⟩)

theorem Element.isReadable_entries {e : Element} (h : ∀ t ∈ e.texts, t.IsReadable) (gap : Bool) :
    ∀ x ∈ e.entries gap, x.IsReadable := by
  rw [texts, List.forall_mem_append] at h
  refine List.forall_mem_append.2 ⟨isReadable_record (by decide) (by decide) (by decide) h.1 gap 1,
    List.forall_mem_flatMap.2 fun s hs => Statement.isReadable_entries fun t ht => ?_⟩
  exact h.2 t (List.mem_flatMap.2 ⟨s, hs, ht⟩)

theorem isReadable_entries {d : Document} (h : ∀ t ∈ d.texts, t.IsReadable) :
    ∀ x ∈ d.entries, x.IsReadable := by
  obtain ⟨_ | _ | ⟨e, es⟩⟩ := d
  · exact List.forall_mem_nil _
  · exact List.forall_mem_singleton.2 ⟨by decide, nofun⟩
  · have he {e' : Element} (he' : e' ∈ e :: es) (gap : Bool) : ∀ x ∈ e'.entries gap, x.IsReadable :=
      e'.isReadable_entries (fun t ht => h t (List.mem_flatMap.2 ⟨e', he', ht⟩)) gap
    exact List.forall_mem_append.2 ⟨he (by simp) false,
      List.forall_mem_flatMap.2 fun e' he' => he (List.mem_cons_of_mem _ he') true⟩

/-! ### The tables of a document -/

/-- The table of an argument. -/
def Argument.table (a : Argument) : Toml.Table := fieldNodes (fields Argument.slots a)

/-- The table of a statement. -/
def Statement.table (s : Statement) : Toml.Table :=
  fieldNodes (fields Statement.slots s) ++ Toml.branch "args" (s.args.map Argument.table).reverse

/-- The table of an element. -/
def Element.table (e : Element) : Toml.Table :=
  fieldNodes (fields Element.slots e) ++ Toml.branch "body" (e.body.map Statement.table).reverse

/-- The way to elements. -/
def Element.way : Toml.Key := ["element"]

/-- The way to statements. -/
def Statement.way : Toml.Key := ["element", "body"]

/-- The way to arguments. -/
def Argument.way : Toml.Key := ["element", "body", "args"]

/-- The keys of an argument. -/
def Argument.keys (a : Argument) : List Toml.Key :=
  Argument.way :: fieldKeys Argument.way (fields Argument.slots a)

/-- The keys of a statement. -/
def Statement.keys (s : Statement) : List Toml.Key :=
  Statement.way :: fieldKeys Statement.way (fields Statement.slots s)
    ++ s.args.flatMap Argument.keys

/-- The keys of an element. -/
def Element.keys (e : Element) : List Toml.Key :=
  Element.way :: fieldKeys Element.way (fields Element.slots e) ++ e.body.flatMap Statement.keys

/-- A record with its fields adds a table. -/
theorem adds_fields {ρ α : Type} (slots : List (Slot ρ)) (nested : String)
    (hslots : (slots.map fun s => (s.key : Text)).Nodup)
    (hnested : (nested : Text) ∉ slots.map fun s => (s.key : Text)) (p : Toml.Key) (k : Text)
    (path : List String) (hpath : path.map Text.ofString = p ++ [k]) {xs : List α}
    {entries : α → List Entry} {table : α → Toml.Table} {keys : α → List Toml.Key}
    (hxs : ∀ x ∈ xs, Adds (p ++ [k]) nested (entries x) (table x) (keys x)) (r : ρ) (gap : Bool)
    (depth : Nat) :
    Adds p k (.item gap path :: fieldEntries depth (fields slots r) ++ xs.flatMap entries)
      (fieldNodes (fields slots r) ++ Toml.branch nested (xs.map table).reverse)
      ((p ++ [k]) :: fieldKeys (p ++ [k]) (fields slots r) ++ xs.flatMap keys) :=
  Toml.adds_record hpath (hslots.sublist (fieldNames_sublist slots r))
    (fun h => hnested ((fieldNames_sublist slots r).subset h)) hxs gap depth

theorem Argument.adds (a : Argument) : Adds Statement.way "args" a.entries a.table a.keys := by
  -- an argument has no smaller records
  have none : ∀ x ∈ ([] : List Argument), Adds Argument.way "" x.entries x.table x.keys := nofun
  have h := adds_fields Argument.slots "" (by decide) (by decide) Statement.way "args"
    ["element", "body", "args"] rfl none a true 3
  rw [List.flatMap_nil, List.flatMap_nil, List.append_nil, List.append_nil] at h
  rwa [List.map_nil, List.reverse_nil, Toml.branch, if_pos rfl, List.append_nil] at h

theorem Statement.adds (s : Statement) : Adds Element.way "body" s.entries s.table s.keys :=
  adds_fields Statement.slots "args" (by decide) (by decide) Element.way "body"
    ["element", "body"] rfl (fun a _ => Argument.adds a) s true 2

theorem Element.adds (e : Element) (gap : Bool) :
    Adds [] "element" (e.entries gap) e.table e.keys :=
  adds_fields Element.slots "body" (by decide) (by decide) [] "element" ["element"] rfl
    (fun s _ => Statement.adds s) e gap 1

/-! ### Reading the tables -/

section Record

variable {ρ σ τ : Type}

/-- Copies a field from one record to another. -/
def Slot.copy (s : Slot ρ) (r acc : ρ) : ρ :=
  match s.access with
  | .one get set => set acc (get r)
  | .many get set => set acc (get r)

/-- Whether a field that is empty can be left as it is. -/
def Slot.Clear (s : Slot ρ) (acc : ρ) : Prop :=
  match s.access with
  | .one _ set => set acc [] = acc
  | .many _ set => set acc [] = acc

/-- Copying the fields of `r` one after the other turns `acc` into `out`, and each is empty
before. -/
def Fills (r : ρ) : List (Slot ρ) → ρ → ρ → Prop
  | [], acc, out => acc = out
  | s :: slots, acc, out => s.Clear acc ∧ Fills r slots (s.copy r acc) out

theorem Slot.copy_of_written_eq_none {s : Slot ρ} {r acc : ρ} (hs : s.Clear acc)
    (h : s.written r = none) : s.copy r acc = acc := by
  obtain ⟨key, content, access, always⟩ := s
  cases access with
  | one get set =>
    simp only [written, ite_eq_left_iff, reduceCtorEq, imp_false, not_not] at h
    exact (congrArg (set acc) h.1).trans hs
  | many get set =>
    simp only [written, ite_eq_left_iff, reduceCtorEq, imp_false, not_not] at h
    exact (congrArg (set acc) h).trans hs

theorem mapM_ofNode (c : Content) (ts : List Text) :
    (ts.map Toml.Node.string).mapM c.ofNode = .ok ts := by
  induction ts with
  | nil => rfl
  | cons t ts ih =>
    have ht : c.ofNode (.string t) = .ok t := by cases c <;> rfl
    rw [List.map_cons, List.mapM_cons, ht, ih]
    rfl

theorem Slot.ofNode_written {s : Slot ρ} {r : ρ} {w : Written} (h : s.written r = some w)
    (acc : ρ) : s.ofNode acc w.node = .ok (s.copy r acc) := by
  obtain ⟨key, content, access, always⟩ := s
  cases access with
  | one get set =>
    simp only [written, Option.ite_none_left_eq_some, Option.some.injEq] at h
    obtain ⟨-, rfl⟩ := h
    cases content <;> rfl
  | many get set =>
    simp only [written, Option.ite_none_left_eq_some, Option.some.injEq] at h
    obtain ⟨-, rfl⟩ := h
    simp only [ofNode, Written.node, nodeItems, Toml.Node.items?, bind, Except.bind, mapM_ofNode]
    rfl

theorem find?_slot {slots : List (Slot ρ)} (h : (slots.map fun s => (s.key : Text)).Nodup)
    {s : Slot ρ} (hs : s ∈ slots) :
    slots.find? (fun a => (a.key : Text) = (s.key : Text)) = some s := by
  induction slots with
  | nil => cases hs
  | cons a slots ih =>
    obtain ⟨ha, hslots⟩ := List.nodup_cons.1 h
    rcases List.mem_cons.1 hs with rfl | hs
    · exact List.find?_cons_of_pos (by simp)
    · rw [List.find?_cons_of_neg, ih hslots hs]
      simp only [decide_eq_true_eq]
      exact fun heq => ha (List.mem_map.2 ⟨s, hs, heq.symm⟩)

theorem matchKey_slot {slots : List (Slot ρ)} (h : (slots.map fun s => (s.key : Text)).Nodup)
    {s : Slot ρ} (hs : s ∈ slots) : Toml.matchKey Slot.key slots s.key = some s := by
  rw [Toml.matchKey, find?_slot h hs]
  rfl

variable {slots : List (Slot ρ)} {branchKey : Option String}
  {nested : Toml.Key → Kept σ → Toml.Node → Except ReadError (Using (Kept σ))} {path : Toml.Key}

/-- The fields of a record are read back. -/
theorem ofEntries_fields (hslots : (slots.map fun s => (s.key : Text)).Nodup) {r : ρ}
    {todo : List (Slot ρ)} (htodo : ∀ s ∈ todo, s ∈ slots) {acc out : ρ}
    (hfills : Fills r todo acc out) {kept : Kept σ} {rest : Toml.Table} {d : Draft ρ σ}
    {used : List Toml.Key}
    (hrest : ofEntries slots branchKey nested path ⟨out, kept⟩ rest = .ok (d, used)) :
    ofEntries slots branchKey nested path ⟨acc, kept⟩ (fieldNodes (fields todo r) ++ rest) =
      .ok (d, fieldKeys path (fields todo r) ++ used) := by
  -- `acc` has the fields that were read, `todo` are the slots of the others
  induction todo generalizing acc with
  | nil =>
    cases hfills
    exact hrest
  | cons s todo ih =>
    obtain ⟨hs, htodo⟩ := List.forall_mem_cons.1 htodo
    obtain ⟨hclear, hfills⟩ := hfills
    have ih := ih htodo hfills
    rw [fields_cons]
    cases hw : s.written r with
    | none =>
      -- the field was left out because it is empty, and so it is in `acc`
      rw [Slot.copy_of_written_eq_none hclear hw] at ih
      exact ih
    | some w =>
      have hnode := Slot.ofNode_written hw acc
      simp only [Option.map_some, Option.toList_some, List.cons_append, List.nil_append, fieldNodes,
        fieldKeys, List.map_cons] at ih ⊢
      simp only [ofEntries, matchKey_slot hslots hs, hnode, ih, bind, Except.bind, pure,
        Except.pure]

/-- Read from scratch, the table `t` gives `x`, and all keys `ks` but `p` are used for it. -/
def Gives (read : σ → Toml.Table → Except ReadError (Using σ)) (blank : σ) (finish : σ → τ)
    (p : Toml.Key) (t : Toml.Table) (ks : List Toml.Key) (x : τ) : Prop :=
  ∃ s used, read blank t = .ok (s, used) ∧ finish s = x ∧ ∀ k ∈ ks, k = p ∨ k ∈ used

section Gives

variable {read : σ → Toml.Table → Except ReadError (Using σ)} {blank : σ} {finish : σ → τ}
  {p : Toml.Key} {table : τ → Toml.Table} {keys : τ → List Toml.Key} {xs : List τ}

theorem Gives.ofNodes (h : ∀ x ∈ xs, Gives read blank finish p (table x) (keys x) x) :
    ∃ found, Document.ofNodes read blank [] (xs.map fun x => .table (table x)) = .ok found ∧
      found.map (fun f => finish f.1) = xs ∧
      ∀ k ∈ xs.flatMap keys, k = p ∨ k ∈ found.flatMap Prod.snd := by
  induction xs with
  | nil => exact ⟨[], rfl, rfl, nofun⟩
  | cons x xs ih =>
    obtain ⟨⟨s, used, hread, hfinish, hkeys⟩, hxs⟩ := List.forall_mem_cons.1 h
    obtain ⟨found, hfound, hmap, hall⟩ := ih hxs
    refine ⟨(s, used) :: found, ?_, ?_, ?_⟩
    · simp only [List.map_cons, Document.ofNodes, List.headD_nil, hread, List.tail_nil, hfound,
        bind, Except.bind, pure, Except.pure]
    · rw [List.map_cons, hfinish, hmap]
    · rw [List.flatMap_cons, List.flatMap_cons, List.forall_mem_append]
      exact ⟨fun k hk => (hkeys k hk).imp_right (List.mem_append_left _),
        fun k hk => (hall k hk).imp_right (List.mem_append_right _)⟩

/-- Smaller records are read back in their order. -/
theorem Gives.kept (h : ∀ x ∈ xs, Gives read blank finish p (table x) (keys x) x) :
    ∃ kept used, Kept.ofNode read blank {} (.tables (xs.map table).reverse) = .ok (kept, used) ∧
      kept.shown.map finish = xs ∧ ∀ k ∈ xs.flatMap keys, k = p ∨ k ∈ used := by
  obtain ⟨found, hfound, hmap, hkeys⟩ := Gives.ofNodes h
  refine ⟨.readOver [] (found.map Prod.fst), found.flatMap Prod.snd, ?_, ?_, hkeys⟩
  · simp only [Kept.ofNode, nodeItems, Toml.Node.items?, List.reverse_reverse, List.map_map,
      Function.comp_def, ite_self, hfound, bind, Except.bind, pure, Except.pure]
  · rw [Kept.readOver, Kept.shown, List.drop_nil, List.append_nil, Option.getD_some,
      List.take_length, List.map_map]
    exact hmap

end Gives

variable {read : Toml.Key → σ → Toml.Table → Except ReadError (Using σ)} {blank : σ}
  {finish : σ → τ} {table : τ → Toml.Table} {keys : τ → List Toml.Key} {xs : List τ} {key : String}

/-- The list of smaller records is read back. -/
theorem ofEntries_branch (hkey : (Toml.matchKey Slot.key slots key).isNone)
    (h : ∀ x ∈ xs, Gives (read (path ++ [(key : Text)])) blank finish (path ++ [(key : Text)])
      (table x) (keys x) x) (r : ρ) :
    ∃ kept used, ofEntries slots (some key) (fun path => Kept.ofNode (read path) blank) path ⟨r, {}⟩
        (Toml.branch key (xs.map table).reverse) = .ok (⟨r, kept⟩, used) ∧
      kept.shown.map finish = xs ∧ ∀ k ∈ xs.flatMap keys, k ∈ used := by
  by_cases hxs : xs = []
  · subst hxs
    exact ⟨{}, [], rfl, rfl, nofun⟩
  · have hself : Toml.matchKey id [key] key = some key := by simp [Toml.matchKey]
    obtain ⟨kept, used, hkept, hshown, hkeys⟩ := Gives.kept h
    refine ⟨kept, (path ++ [(key : Text)]) :: used, ?_, hshown,
      fun k hk => List.mem_cons.2 (hkeys k hk)⟩
    rw [Toml.branch, if_neg (by simpa using hxs)]
    simp only [ofEntries, Option.isNone_iff_eq_none.1 hkey, Option.toList_some, hself, hkept, bind,
      Except.bind, pure, Except.pure, List.append_nil]

/-- **A record is read back**, if its smaller records are. -/
theorem gives_record (hslots : (slots.map fun s => (s.key : Text)).Nodup)
    (hkey : (Toml.matchKey Slot.key slots key).isNone) {b : Branch ρ τ} {r start out : ρ}
    (hfills : Fills r slots start out) (hset : b.set out (b.get r) = r)
    (h : ∀ x ∈ b.get r, Gives (read (path ++ [(key : Text)])) blank finish (path ++ [(key : Text)])
      (table x) (keys x) x) :
    Gives (ofEntries slots (some key) (fun path => Kept.ofNode (read path) blank) path)
      ⟨start, {}⟩ (Draft.finish b finish) path
      (fieldNodes (fields slots r) ++ Toml.branch key ((b.get r).map table).reverse)
      (path :: fieldKeys path (fields slots r) ++ (b.get r).flatMap keys) r := by
  obtain ⟨kept, used, hbranch, hshown, hkeys⟩ := ofEntries_branch hkey h out
  refine ⟨_, _, ofEntries_fields hslots (fun _ hs => hs) hfills hbranch, ?_, ?_⟩
  · rw [Draft.finish, hshown, hset]
  · intro k hk
    simp only [List.cons_append, List.mem_cons, List.mem_append] at hk ⊢
    exact hk.imp_right (Or.imp_right (hkeys k))

end Record

theorem Argument.gives (a : Argument) :
    Gives (Argument.ofTable Argument.way) {} id Argument.way a.table a.keys a := by
  have hfills : Fills a slots {} a := by simp [Fills, slots, Slot.Clear, Slot.copy]
  have hread : ofEntries (σ := Empty) slots none (fun _ _ _ => .error .wrongType) Argument.way
      ⟨{}, {}⟩ (a.table ++ []) = .ok (⟨a, {}⟩, fieldKeys Argument.way (fields slots a) ++ []) :=
    ofEntries_fields (by decide) (fun _ hs => hs) hfills rfl
  rw [List.append_nil, List.append_nil] at hread
  refine ⟨a, fieldKeys Argument.way (fields slots a), ?_, rfl, fun k hk => List.mem_cons.1 hk⟩
  simp only [ofTable, hread, bind, Except.bind, pure, Except.pure]

theorem Statement.gives (s : Statement) :
    Gives (StatementDraft.ofTable Statement.way) ⟨{}, {}⟩ StatementDraft.statement Statement.way
      s.table s.keys s := by
  have hfills : Fills s slots {} { s with args := [] } := by
    simp [Fills, slots, Slot.Clear, Slot.copy]
  exact gives_record (by decide) (by decide) hfills rfl fun a _ => a.gives

theorem Element.gives (e : Element) :
    Gives (ElementDraft.ofTable Element.way) ⟨{}, {}⟩ ElementDraft.element Element.way
      e.table e.keys e := by
  have hfills : Fills e slots {} { e with body := [] } := by
    simp [Fills, slots, Slot.Clear, Slot.copy]
  exact gives_record (by decide) (by decide) hfills rfl fun s _ => s.gives

/-! ### Documents -/

/-- The table of a document. -/
def table (d : Document) : Toml.Table :=
  match d.elements? with
  | none => []
  | some [] => [("element", .array [])]
  | some es => Toml.branch "element" (es.map Element.table).reverse

/-- The keys of a document. -/
def keys (d : Document) : List Toml.Key :=
  match d.elements? with
  | none => []
  | some [] => [Element.way]
  | some es => es.flatMap Element.keys

theorem dropMark_toml (d : Document) : Toml.dropMark d.toml = d.toml := by
  obtain ⟨_ | _ | ⟨e, es⟩⟩ := d
  · rfl
  · rfl
  · have htoml : toml ⟨some (e :: es)⟩ = Text.join Text.newline ((e :: es).map Element.toml) := rfl
    rw [htoml, List.map_cons, join_cons]
    rfl

/-- **The text of a document is read as its table.** -/
theorem parse_toml {d : Document} (h : ∀ t ∈ d.texts, t.IsReadable) :
    Toml.parse d.toml = .ok { root := d.table, keys := d.keys } := by
  obtain ⟨ls, hls, hparse⟩ := Toml.parse_entries (isReadable_entries h)
    (by rw [text_entries, dropMark_toml])
  rw [text_entries] at hparse
  obtain ⟨_ | _ | ⟨e, es⟩⟩ := d
  · cases hls
    exact hparse {} rfl
  · obtain _ | ⟨hl, hls⟩ := hls
    cases hls
    have hempty : ({} : Toml.Builder).root = Toml.nest [] [] := rfl
    obtain ⟨b, hadd, hroot, hkeys⟩ := Toml.Builder.add_field hempty hl (by simp)
    rw [hparse b (hadd []), hroot, hkeys]
    rfl
  · -- only the first element has no blank line in front
    obtain ⟨ls₁, ls₂, rfl, hls₁, hls₂⟩ := Toml.exists_of_forall₂_append hls
    obtain ⟨b₁, c₁, hadd₁, hroot₁, hkeys₁⟩ := e.adds false [] rfl [] (by simp) [] {} rfl [] ls₁ hls₁
    obtain ⟨b₂, c₂, hadd₂, hroot₂, hkeys₂⟩ := Toml.Adds.all (fun e _ => Element.adds e true) rfl
      (by simp) hroot₁ c₁ hls₂
    have hadd : ({} : Toml.Builder).add [] (ls₁ ++ ls₂) = .ok b₂ := by
      rw [hadd₁]
      simpa [Toml.Builder.add] using hadd₂ []
    rw [hparse b₂ hadd, hroot₂, hkeys₂, hkeys₁]
    simp [table, keys, Toml.nest]

/-- The table of a document gives the document, and all of its keys are used. -/
theorem ofTable_table (d : Document) :
    ∃ used, ofTable d.table = .ok (d, used) ∧ ∀ k ∈ d.keys, k ∈ used := by
  obtain ⟨_ | _ | ⟨e, es⟩⟩ := d
  · exact ⟨[], rfl, fun _ hk => hk⟩
  · -- the list is written as an empty array, since there is no table to open
    exact ⟨[Element.way], rfl, fun _ hk => hk⟩
  · have hgives : ∀ x ∈ e :: es, Gives (ElementDraft.ofTable ([] ++ [("element" : Text)])) ⟨{}, {}⟩
        ElementDraft.element ([] ++ [("element" : Text)]) x.table x.keys x := fun x _ => x.gives
    have hkey : (Toml.matchKey Slot.key ([] : List (Slot Document)) "element").isNone := rfl
    obtain ⟨kept, used, hread, hshown, hkeys⟩ := ofEntries_branch hkey hgives {}
    refine ⟨used, ?_, hkeys⟩
    have hcount : kept.count.isSome = true := by
      cases hk : kept.count with
      | none => simp [Kept.shown, hk] at hshown
      | some n => rfl
    simp only [ofTable, table, branch, hread, DocumentDraft.document, hcount, Draft.finish, hshown,
      bind, Except.bind, pure, Except.pure, if_true]

/-- **Documents survive TOML**: whatever the texts of a document hold, quotes, line breaks and
control characters included, the document is read back from what is written for it, as long as
its texts are UTF-8 and do not hold U+FFFD, which the reader takes for a broken character. -/
theorem decode_encode_toml {d : Document} (h : ∀ t ∈ d.texts, t.IsReadable) :
    decode .toml (encode .toml d) = .ok d := by
  obtain ⟨used, hread, hused⟩ := ofTable_table d
  have hall : d.keys.filter (!used.contains ·) = [] := by
    simpa [List.filter_eq_nil_iff] using hused
  simp only [decode, encode, ofToml, parse_toml h, hread, hall, bind, Except.bind, pure,
    Except.pure]

/-- A document with all that is hard to write: quotes, backslashes, line breaks, control
characters, characters of two, three and four bytes, a list with an empty text, an empty element
and a call without arguments. -/
def thorny : Document :=
  ⟨some
    [{ kind := "array", name := "a\"b\\c", values := ["1", "", "#\n\t\x0d\x00\x1b\x7f"] },
     {},
     { kind := "func", name := "é€𝄞", text := "[[element]]", params := ["x = 'y'"],
       body := [{ op := "call", func := "f", args := [{ lit := "0x10" }, { ident := "\x08" }, {}] },
         { op := "call" }] }]⟩

theorem decode_encode_toml_thorny :
    (∀ t ∈ thorny.texts, t.IsReadable) ∧ decode .toml (encode .toml thorny) = .ok thorny := by
  have h : ∀ t ∈ thorny.texts, t.IsReadable := by decide +kernel
  exact ⟨h, decode_encode_toml h⟩

end Document

end StumpGen
