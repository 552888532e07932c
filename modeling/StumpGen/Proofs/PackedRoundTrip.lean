import StumpGen.Compilation
import StumpGen.Proofs.Packing
import StumpGen.Proofs.TomlRoundTrip

/-!
# Documents that are packed and read back

A record is packed as a map of the fields that are not empty.  The head of the map tells how many
fields follow, so it has to count exactly those that are written, and the head of each text and
list has to be the one that the reader finds for its size.  The way back is shown for a record with
a list of slots and one list of smaller records, and then for arguments, statements, elements and
documents in turn.

* `MessagePack.head_arrayHead`, `MessagePack.head_mapHead` : heads of all sizes are read back.
* `Document.Reads` : a reader takes exactly what was written, whatever follows.
* `Document.reads_record` : **a packed record is read back**, if its smaller records are.
* `Document.decode_encode_msgpack` : a document is read back as it was, and so it gives the same
  program and the same image.
-/

namespace StumpGen

namespace MessagePack

theorem head_arrayHead {n : Nat} (h : n < 0x100000000) (rest : Text) :
    head (arrayHead n ++ rest) = some (.array n, rest) := by
  unfold arrayHead
  split
  next hn =>
    have hb : ((0x90 + n).toUInt8).toNat = 0x90 + n := Nat.mod_eq_of_lt (by omega)
    rw [List.singleton_append, head_shortArray rest (by omega) (by omega), hb,
      Nat.add_sub_cancel_left]
  next =>
  split
  next hn => exact sized_big (n := 2) hn .array rest
  next => exact sized_big (n := 4) h .array rest

theorem head_mapHead {n : Nat} (h : n < 0x100000000) (rest : Text) :
    head (mapHead n ++ rest) = some (.map n, rest) := by
  unfold mapHead
  split
  next hn =>
    have hb : ((0x80 + n).toUInt8).toNat = 0x80 + n := Nat.mod_eq_of_lt (by omega)
    rw [List.singleton_append, head_shortMap rest (by omega) (by omega), hb,
      Nat.add_sub_cancel_left]
  next =>
  split
  next hn => exact sized_big (n := 2) hn .map rest
  next => exact sized_big (n := 4) h .map rest

end MessagePack

namespace Document

open MessagePack (Found ofText ofList)

/-! ### Texts and lists -/

/-- A reader takes the bytes `w` over `a` and gives `b`, whatever follows them. -/
def Reads {α : Type} (read : α → Text → Except ReadError (Found α)) (a : α) (w : Text) (b : α) :
    Prop :=
  ∀ rest, read a (w ++ rest) = .ok (b, rest)

theorem Content.packed_ofText (c : Content) {t : Text} (h : t.length < 0x100000000) (rest : Text) :
    c.packed (ofText t ++ rest) = .ok (t, rest) := by
  cases c with
  | text => rw [Content.packed, MessagePack.text_ofText h, Document.packed]
  | literal =>
    have hhead : MessagePack.head (ofText t ++ rest) = some (.text t.length, t ++ rest) := by
      rw [ofText, List.append_assoc, MessagePack.head_textHead h]
    simp only [Content.packed, packedLiteral, hhead, MessagePack.text_ofText h, Document.packed]

theorem packedSize_arrayHead {n : Nat} (h : n < 0x100000000) (rest : Text) :
    packedSize (MessagePack.arrayHead n ++ rest) = .ok (some n, rest) := by
  rw [packedSize, MessagePack.head_arrayHead h]

/-- Items are read one after the other, if each is read over whatever may stand in its place. -/
theorem packedItems_map {α τ : Type} {read : α → Text → Except ReadError (Found α)} {blank : α}
    {write : τ → Text} {value : τ → α} {xs : List τ} {old : List α}
    (h : ∀ x ∈ xs, ∀ a ∈ blank :: old, Reads read a (write x) (value x)) (rest : Text) :
    packedItems read blank xs.length old ((xs.map write).flatten ++ rest) =
      .ok (xs.map value, rest) := by
  induction xs generalizing old with
  | nil => rfl
  | cons x xs ih =>
    obtain ⟨hx, hxs⟩ := List.forall_mem_cons.1 h
    have hfirst : old.headD blank ∈ blank :: old := by cases old <;> simp
    have hold : blank :: old.tail ⊆ blank :: old :=
      List.cons_subset_cons _ (List.tail_sublist old).subset
    have ih := ih fun y hy a ha => hxs y hy a (hold ha)
    have hread := hx _ hfirst ((xs.map write).flatten ++ rest)
    simp only [List.length_cons, packedItems, List.map_cons, List.flatten_cons, List.append_assoc,
      hread, ih, bind, Except.bind, pure, Except.pure]

/-! ### Fields -/

section Record

variable {ρ σ τ α : Type}

/-- The texts of a field, and the list of them, have lengths that a head can tell. -/
def Slot.Fits (s : Slot ρ) (r : ρ) : Prop :=
  (s.texts r).length < 0x100000000 ∧ ∀ t ∈ s.texts r, t.length < 0x100000000

instance (s : Slot ρ) (r : ρ) : Decidable (s.Fits r) :=
  inferInstanceAs (Decidable ((s.texts r).length < 0x100000000 ∧
    ∀ t ∈ s.texts r, t.length < 0x100000000))

theorem Slot.copy_of_entry_eq_none {s : Slot ρ} {r acc : ρ} (hs : s.Clear acc)
    (h : s.entry r = none) : s.copy r acc = acc := by
  obtain ⟨key, content, access, always⟩ := s
  cases access with
  | one get set =>
    simp only [entry, ite_eq_left_iff, reduceCtorEq, imp_false, not_not] at h
    exact (congrArg (set acc) h).trans hs
  | many get set =>
    simp only [entry, ite_eq_left_iff, reduceCtorEq, imp_false, not_not] at h
    exact (congrArg (set acc) h).trans hs

/-- A field that is written is read back. -/
theorem Slot.reads_entry {s : Slot ρ} {r : ρ} (hs : s.Fits r) {k v : Text}
    (h : s.entry r = some (k, v)) (acc : ρ) :
    k = s.key ∧ Reads s.ofPacked acc v (s.copy r acc) := by
  obtain ⟨key, content, access, always⟩ := s
  cases access with
  | one get set =>
    simp only [entry, Option.ite_none_left_eq_some, Option.some.injEq, Prod.mk.injEq] at h
    obtain ⟨-, rfl, rfl⟩ := h
    refine ⟨rfl, fun rest => ?_⟩
    have hlen : (get r).length < 0x100000000 := hs.2 (get r) (by simp [texts])
    simp only [ofPacked, content.packed_ofText hlen, bind, Except.bind, pure, Except.pure, copy]
  | many get set =>
    simp only [entry, Option.ite_none_left_eq_some, Option.some.injEq, Prod.mk.injEq] at h
    obtain ⟨-, rfl, rfl⟩ := h
    refine ⟨rfl, fun rest => ?_⟩
    have hsize := packedSize_arrayHead hs.1 (((get r).map ofText).flatten ++ rest)
    have hitems : packedItems (fun _ => content.packed) [] (get r).length (get acc)
        (((get r).map ofText).flatten ++ rest) = .ok ((get r).map id, rest) :=
      packedItems_map (fun t ht _ _ rest => content.packed_ofText (hs.2 t ht) rest) rest
    simp only [texts] at hsize
    simp only [ofPacked, ofList, List.length_map, List.append_assoc, hsize, hitems, List.map_id,
      bind, Except.bind, pure, Except.pure, copy]

/-- The bytes of entries one after another. -/
def entryBytes (entries : List (Text × Text)) : Text := entries.flatMap fun e => ofText e.1 ++ e.2

theorem packedNamed_entry {fields : PackFields α}
    {f : String × (α → Text → Except ReadError (Found α))} {k v : Text}
    (hk : k.length < 0x100000000)
    (hf : (fields.find? fun f => (f.1 : Text) = k) = some f) {a b : α} (hv : Reads f.2 a v b)
    (n : Nat) (rest : Text) :
    packedNamed fields (n + 1) a (ofText k ++ v ++ rest) = packedNamed fields n b rest := by
  have htext := MessagePack.text_ofText hk (v ++ rest)
  simp only [packedNamed, List.append_assoc, htext, Document.packed, hf, hv rest, bind, Except.bind]

/-- The field of a slot is found by its name, and is read into a part of the whole. -/
def FindsSlots (fields : PackFields α) (lift : ρ → α) (slots : List (Slot ρ)) : Prop :=
  ∀ s ∈ slots, ∃ f, (fields.find? fun f => (f.1 : Text) = (s.key : Text)) = some f ∧
    ∀ {r r' : ρ} {w : Text}, Reads s.ofPacked r w r' → Reads f.2 (lift r) w (lift r')

/-- The fields of a record are read back, and the count of those that follow stays right. -/
theorem packedNamed_slots {fields : PackFields α} {lift : ρ → α} {slots : List (Slot ρ)}
    (hkeys : ∀ s ∈ slots, (s.key : Text).length < 0x100000000)
    (hfinds : FindsSlots fields lift slots) {r acc out : ρ} (hfits : ∀ s ∈ slots, s.Fits r)
    (hfills : Fills r slots acc out) (n : Nat) (rest : Text) :
    packedNamed fields ((slots.filterMap (Slot.entry r)).length + n) (lift acc)
        (entryBytes (slots.filterMap (Slot.entry r)) ++ rest) =
      packedNamed fields n (lift out) rest := by
  -- `acc` has the fields that were read, `slots` are those of the others
  induction slots generalizing acc with
  | nil =>
    cases hfills
    simp [entryBytes]
  | cons s slots ih =>
    obtain ⟨hk, hkeys⟩ := List.forall_mem_cons.1 hkeys
    obtain ⟨⟨f, hf, hread⟩, hfinds⟩ := List.forall_mem_cons.1 hfinds
    obtain ⟨hs, hfits⟩ := List.forall_mem_cons.1 hfits
    obtain ⟨hclear, hfills⟩ := hfills
    have ih := ih hkeys hfinds hfits hfills
    cases he : s.entry r with
    | none =>
      -- the field was left out because it is empty, and so it is in `acc`
      rw [List.filterMap_cons_none he]
      rwa [Slot.copy_of_entry_eq_none hclear he] at ih
    | some e =>
      obtain ⟨k, v⟩ := e
      obtain ⟨rfl, hv⟩ := Slot.reads_entry hs he acc
      rw [List.filterMap_cons_some he, entryBytes, List.flatMap_cons, ← entryBytes,
        List.append_assoc, List.length_cons, Nat.add_right_comm,
        packedNamed_entry hk hf (hread hv), ih]

/-- What smaller records are read as.  An empty list of them is not written. -/
def Kept.ofPack {α : Type} (xs : List α) : Kept α := if xs.isEmpty then {} else .readOver [] xs

theorem Kept.shown_ofPack {α : Type} (xs : List α) : (Kept.ofPack xs).shown = xs := by
  cases xs with
  | nil => rfl
  | cons x xs => simp [Kept.ofPack, Kept.readOver, Kept.shown]

/-- Smaller records are read back in their order. -/
theorem reads_kept {read : σ → Text → Except ReadError (Found σ)} {blank : σ} {write : τ → Text}
    {value : τ → σ} {xs : List τ} (hlen : xs.length < 0x100000000)
    (h : ∀ x ∈ xs, Reads read blank (write x) (value x)) :
    Reads (Kept.ofPacked read blank) {} (ofList (xs.map write)) (.readOver [] (xs.map value)) := by
  intro rest
  have hsize := packedSize_arrayHead hlen ((xs.map write).flatten ++ rest)
  have hitems : packedItems read blank xs.length [] ((xs.map write).flatten ++ rest) =
      .ok (xs.map value, rest) :=
    packedItems_map (by simpa using h) rest
  simp only [Kept.ofPacked, ofList, List.length_map, List.append_assoc, hsize, hitems, bind,
    Except.bind, pure, Except.pure]

theorem find?_slotFields {slots : List (Slot ρ)}
    (hslots : (slots.map fun s => (s.key : Text)).Nodup) {s : Slot ρ} (hs : s ∈ slots) :
    ((slotFields slots).find? fun f => (f.1 : Text) = (s.key : Text)) =
      some (s.key, s.ofPacked) := by
  rw [slotFields, List.find?_map]
  simp only [Function.comp_def, find?_slot hslots hs, Option.map_some]

section Draft

variable {slots : List (Slot ρ)} {β : Type}
  {wrap : String × (ρ → Text → Except ReadError (Found ρ)) → String × β}

theorem find?_wrapped (hwrap : ∀ f, (wrap f).1 = f.1)
    (hslots : (slots.map fun s => (s.key : Text)).Nodup) {s : Slot ρ} (hs : s ∈ slots)
    (l : List (String × β)) :
    (((slotFields slots).map wrap ++ l).find? fun f => (f.1 : Text) = (s.key : Text)) =
      some (wrap (s.key, s.ofPacked)) := by
  rw [List.find?_append, List.find?_map]
  simp only [Function.comp_def, hwrap, find?_slotFields hslots hs, Option.map_some, Option.some_or]

theorem find?_last (hwrap : ∀ f, (wrap f).1 = f.1) {key : String}
    (hkey : (key : Text) ∉ slots.map fun s => (s.key : Text)) (last : β) :
    (((slotFields slots).map wrap ++ [(key, last)]).find? fun f => (f.1 : Text) = (key : Text)) =
      some (key, last) := by
  have hnone :
      ((slotFields slots).map wrap).find? (fun f => (f.1 : Text) = (key : Text)) = none := by
    refine List.find?_eq_none.2 fun f hf => ?_
    obtain ⟨g, hg, rfl⟩ := List.mem_map.1 hf
    obtain ⟨s, hs, rfl⟩ := List.mem_map.1 hg
    rw [hwrap, decide_eq_true_eq]
    exact fun heq => hkey (List.mem_map.2 ⟨s, hs, heq⟩)
  rw [List.find?_append, hnone]
  simp

variable {read : σ → Text → Except ReadError (Found σ)} {blank : σ}

theorem findsSlots_draftFields (hslots : (slots.map fun s => (s.key : Text)).Nodup) (key : String) :
    FindsSlots (draftFields slots key read blank) (fun r => ⟨r, {}⟩) slots := by
  intro s hs
  refine ⟨_, find?_wrapped ?_ hslots hs _, ?_⟩
  · intro f
    rfl
  · intro r r' w h rest
    simp only [h rest, bind, Except.bind, pure, Except.pure]

variable (read blank) in
theorem finds_branch {key : String} (hkey : (key : Text) ∉ slots.map fun s => (s.key : Text)) :
    ∃ f, ((draftFields slots key read blank).find? fun f => (f.1 : Text) = (key : Text)) = some f ∧
      ∀ {r : ρ} {k k' : Kept σ} {w : Text}, Reads (Kept.ofPacked read blank) k w k' →
        Reads f.2 ⟨r, k⟩ w ⟨r, k'⟩ := by
  refine ⟨_, find?_last ?_ hkey _, ?_⟩
  · intro f
    rfl
  · intro r k k' w h rest
    simp only [h rest, bind, Except.bind, pure, Except.pure]

/-- A map of entries is read as its entries. -/
theorem packedRecord_ofEntries {α : Type} {fields : PackFields α} {entries : List (Text × Text)}
    (h : entries.length < 0x100000000) (blank r : α) (rest : Text) :
    packedRecord fields blank r (MessagePack.ofEntries entries ++ rest) =
      packedNamed fields entries.length r (entryBytes entries ++ rest) := by
  have hbytes : MessagePack.ofEntries entries =
      MessagePack.mapHead entries.length ++ entryBytes entries := rfl
  rw [hbytes, List.append_assoc, packedRecord, MessagePack.head_mapHead h]

/-- **A packed record is read back**, if its smaller records are. -/
theorem reads_record {b : Branch ρ τ} (hslots : (slots.map fun s => (s.key : Text)).Nodup)
    (hkey : (b.key : Text) ∉ slots.map fun s => (s.key : Text))
    (hkeys : ∀ k ∈ b.key :: slots.map Slot.key, (k : Text).length < 0x100000000)
    (hcount : slots.length + 1 < 0x100000000) {write : τ → Text} {value : τ → σ} {r start out : ρ}
    (hfits : ∀ s ∈ slots, s.Fits r) (hfills : Fills r slots start out)
    (hlen : (b.get r).length < 0x100000000)
    (h : ∀ x ∈ b.get r, Reads read blank (write x) (value x)) :
    Reads (packedRecord (draftFields slots b.key read blank) ⟨start, {}⟩) ⟨start, {}⟩
      (MessagePack.ofEntries (slots.filterMap (Slot.entry r) ++ (b.entry write r).toList))
      ⟨out, .ofPack ((b.get r).map value)⟩ := by
  intro rest
  have hshort : (slots.filterMap (Slot.entry r) ++ (b.entry write r).toList).length
      < 0x100000000 := by
    have h₁ := List.length_filterMap_le (Slot.entry r) slots
    have h₂ : (b.entry write r).toList.length ≤ 1 := by cases b.entry write r <;> simp
    rw [List.length_append]
    omega
  obtain ⟨hbranch, hkeys⟩ := List.forall_mem_cons.1 hkeys
  rw [packedRecord_ofEntries hshort, List.length_append, entryBytes, List.flatMap_append,
    ← entryBytes, List.append_assoc,
    packedNamed_slots (fun s hs => hkeys _ (List.mem_map_of_mem hs))
      (findsSlots_draftFields hslots b.key) hfits hfills]
  by_cases hnone : b.get r = []
  · -- without smaller records there is no entry for them
    simp [Branch.entry, hnone, packedNamed, Kept.ofPack]
  · obtain ⟨f, hf, hread⟩ := finds_branch read blank hkey
    have hentry : b.entry write r = some ((b.key : Text), ofList ((b.get r).map write)) := by
      simp [Branch.entry, hnone]
    rw [hentry, Option.toList_some, List.length_singleton, List.flatMap_singleton,
      packedNamed_entry hbranch hf (hread (reads_kept hlen h)), Kept.ofPack,
      if_neg (by simpa using hnone)]
    rfl

end Draft

end Record

/-! ### Documents -/

/-- The texts of an argument have lengths that can be told. -/
def Argument.Packable (a : Argument) : Prop := ∀ s ∈ Argument.slots, s.Fits a

instance : DecidablePred Argument.Packable := fun a =>
  inferInstanceAs (Decidable (∀ s ∈ Argument.slots, s.Fits a))

/-- The texts and lists of a statement have lengths that can be told. -/
def Statement.Packable (s : Statement) : Prop :=
  (∀ x ∈ Statement.slots, x.Fits s) ∧ s.args.length < 0x100000000 ∧ ∀ a ∈ s.args, a.Packable

instance : DecidablePred Statement.Packable := fun s =>
  inferInstanceAs (Decidable ((∀ x ∈ Statement.slots, x.Fits s) ∧ s.args.length < 0x100000000 ∧
    ∀ a ∈ s.args, a.Packable))

/-- The texts and lists of an element have lengths that can be told. -/
def Element.Packable (e : Element) : Prop :=
  (∀ x ∈ Element.slots, x.Fits e) ∧ e.body.length < 0x100000000 ∧ ∀ s ∈ e.body, s.Packable

instance : DecidablePred Element.Packable := fun e =>
  inferInstanceAs (Decidable ((∀ x ∈ Element.slots, x.Fits e) ∧ e.body.length < 0x100000000 ∧
    ∀ s ∈ e.body, s.Packable))

/-- **All texts and lists of a document are shorter than 2³².** -/
def Packable (d : Document) : Prop :=
  d.elements.length < 0x100000000 ∧ ∀ e ∈ d.elements, e.Packable

instance : DecidablePred Packable := fun d =>
  inferInstanceAs (Decidable (d.elements.length < 0x100000000 ∧ ∀ e ∈ d.elements, e.Packable))

/-- What a statement is read as. -/
def Statement.draft (s : Statement) : StatementDraft :=
  ⟨{ s with args := [] }, .ofPack s.args⟩

/-- What an element is read as. -/
def Element.draft (e : Element) : ElementDraft :=
  ⟨{ e with body := [] }, .ofPack (e.body.map Statement.draft)⟩

theorem Argument.reads {a : Argument} (h : a.Packable) :
    Reads Argument.ofPacked {} a.messagePack a := by
  intro rest
  have hfills : Fills a slots {} a := by simp [Fills, slots, Slot.Clear, Slot.copy]
  have hfinds : FindsSlots (slotFields slots) id slots := fun s hs =>
    ⟨_, find?_slotFields (by decide) hs, fun h => h⟩
  have hcount := List.length_filterMap_le (Slot.entry a) slots
  have hread := packedNamed_slots (by decide) hfinds h hfills 0 rest
  rw [ofPacked, messagePack, packedRecord_ofEntries (Nat.lt_of_le_of_lt hcount (by decide))]
  exact hread

theorem Statement.reads {s : Statement} (h : s.Packable) :
    Reads StatementDraft.ofPacked ⟨{}, {}⟩ s.messagePack s.draft := by
  obtain ⟨hslots, hlen, hargs⟩ := h
  have hfills : Fills s slots {} { s with args := [] } := by
    simp [Fills, slots, Slot.Clear, Slot.copy]
  have hread := reads_record (b := Statement.branch) (by decide) (by decide) (by decide) (by decide)
    hslots hfills hlen fun a ha => Argument.reads (hargs a ha)
  rwa [List.map_id'] at hread

theorem Element.reads {e : Element} (h : e.Packable) :
    Reads ElementDraft.ofPacked ⟨{}, {}⟩ e.messagePack e.draft := by
  obtain ⟨hslots, hlen, hbody⟩ := h
  have hfills : Fills e slots {} { e with body := [] } := by
    simp [Fills, slots, Slot.Clear, Slot.copy]
  exact reads_record (b := Element.branch) (by decide) (by decide) (by decide) (by decide)
    hslots hfills hlen fun s hs => Statement.reads (hbody s hs)

theorem Statement.statement_draft (s : Statement) : StatementDraft.statement s.draft = s := by
  rw [StatementDraft.statement, Draft.finish, draft, Kept.shown_ofPack, List.map_id]
  rfl

theorem Element.element_draft (e : Element) : ElementDraft.element e.draft = e := by
  rw [ElementDraft.element, Draft.finish, draft, Kept.shown_ofPack, List.map_map]
  simp only [Function.comp_def, Statement.statement_draft, List.map_id']
  rfl

/-- The document without the list of its elements if that is empty. -/
def trimmed (d : Document) : Document := ⟨if d.elements = [] then none else some d.elements⟩

@[simp] theorem elements_trimmed (d : Document) : d.trimmed.elements = d.elements := by
  by_cases h : d.elements = []
  · rw [trimmed, if_pos h, h]
    rfl
  · rw [trimmed, if_neg h]
    rfl

theorem program_trimmed (d : Document) : d.trimmed.program = d.program := by
  rw [program, elements_trimmed, program]

theorem document_ofPack (d : Document) :
    DocumentDraft.document ⟨{}, .ofPack (d.elements.map Element.draft)⟩ = d.trimmed := by
  by_cases hnone : d.elements = []
  · rw [trimmed, if_pos hnone, hnone]
    rfl
  · have hcount : (Kept.ofPack (d.elements.map Element.draft)).count.isSome = true := by
      simp [Kept.ofPack, hnone, Kept.readOver]
    rw [DocumentDraft.document, if_pos hcount, Draft.finish, Kept.shown_ofPack, List.map_map,
      trimmed, if_neg hnone]
    simp only [Function.comp_def, Element.element_draft, List.map_id']
    rfl

theorem ofMessagePack_messagePack {d : Document} (h : d.Packable) :
    ofMessagePack d.messagePack = .ok d.trimmed := by
  obtain ⟨hlen, helements⟩ := h
  -- a document has no field but the list of its elements
  have hfits : ∀ s ∈ ([] : List (Slot Document)), s.Fits d := nofun
  have hfills : Fills d [] {} {} := rfl
  have hread := reads_record (b := branch) (by decide) (by decide) (by decide) (by decide) hfits
    hfills hlen (fun e he => Element.reads (helements e he)) []
  rw [List.append_nil, List.filterMap_nil, List.nil_append] at hread
  rw [ofMessagePack, messagePack]
  simp only [hread, bind, Except.bind, pure, Except.pure]
  exact congrArg Except.ok (document_ofPack d)

/-- **Documents survive packing**: whatever bytes the texts of a document hold, the document is
read back from what is written for it, as long as no text or list has 2³² or more items; only an
empty list of elements is gone then.  So the elements, the program that the document stands for, and
the image of that program, are the same. -/
theorem decode_encode_msgpack {d : Document} (h : d.Packable) :
    decode .msgpack (encode .msgpack d) = .ok d.trimmed ∧ d.trimmed.elements = d.elements ∧
      (decode .msgpack (encode .msgpack d)).map program = .ok d.program ∧
      ∀ o : Options,
        (decode .msgpack (encode .msgpack d)).map (fun d' => d'.program.map fun p => compile p o) =
          .ok (d.program.map fun p => compile p o) := by
  have hread : decode .msgpack (encode .msgpack d) = .ok d.trimmed := ofMessagePack_messagePack h
  rw [hread]
  refine ⟨rfl, elements_trimmed d, ?_, ?_⟩
  · rw [Except.map, program_trimmed]
  · intro o
    rw [Except.map, program_trimmed]

/-- A document at the bounds of the forms of heads: a statement with all of its sixteen fields,
lists of 15 and 16 texts, texts of 31, 32, 255 and 256 bytes that are not UTF-8, an empty element
and an empty argument. -/
def brimful : Document :=
  ⟨some
    [{ kind := "array", name := "a", values := [] :: List.replicate 15 (List.replicate 31 0xff) },
     {},
     { kind := "function", name := "f", text := List.replicate 256 0x80,
       params := List.replicate 15 (List.replicate 255 0),
       body :=
         [{ op := "call", dest := "1", src := "2", left := "3", right := "4", base := "5",
            offset := "6", addr := "7", name := "8", label := "9", cond := "10", func := "11",
            out := "12", value := "13", amount := List.replicate 32 0xc0,
            args := [{ lit := "0x10" }, {}, { ident := "x", reg := "r1" }] }] }]⟩

theorem decode_encode_msgpack_brimful :
    brimful.Packable ∧ decode .msgpack (encode .msgpack brimful) = .ok brimful := by
  have h : brimful.Packable := by decide +kernel
  exact ⟨h, (decode_encode_msgpack h).1⟩

end Document

end StumpGen
