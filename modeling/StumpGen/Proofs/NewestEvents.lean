import StumpGen.Trace.Tracer
import Mathlib.Data.List.DropRight
import Mathlib.Data.List.Forall2
import Mathlib.Data.List.Rotate

/-!
# A ring keeps the newest events

The places of a ring are written in turn.  After `k` events for `c` places the next one to write is
`k % c`, and the ring is full once `c ≤ k`; the ring is read from its first place before that, and
from the place to write next afterwards.  At every fill level it so gives, oldest first, the newest
of the events it was given:

* `Ring.Holds` : what a ring is after it was given events, at every fill level.
* `Ring.Holds.push` : one event more.
* `Tracer.Emits` : runs of a tracer, between whose events others may take numbers.
* `Tracer.Emits.kept_newest` : **a tracer keeps the newest events that its level records**, oldest
  first, under increasing numbers and otherwise unchanged.
-/

namespace StumpGen.Trace

/-! ### The last elements of a list -/

theorem rtake_of_length_le {α : Type} {n : Nat} {l : List α} (h : l.length ≤ n) :
    l.rtake n = l := by
  rw [List.rtake, Nat.sub_eq_zero_of_le h, List.drop_zero]

theorem rtake_min_length {α : Type} (n : Nat) (l : List α) :
    l.rtake (min n l.length) = l.rtake n := by
  rw [List.rtake, List.rtake]
  congr 1
  omega

theorem rtake_concat_of_le_length {α : Type} {n : Nat} {l : List α} (h : n ≤ l.length)
    (hn : 0 < n) (a : α) : (l ++ [a]).rtake n = (l.rtake n).tail ++ [a] := by
  have hdrop : (l ++ [a]).length - n = l.length - n + 1 := by
    simp only [List.length_append, List.length_singleton]
    omega
  rw [List.rtake, hdrop, List.drop_append_of_le_length (by omega), List.rtake, List.tail_drop]

theorem take_set_succ {α : Type} {k : Nat} {l : List α} (h : k < l.length) (a : α) :
    (l.set k a).take (k + 1) = l.take k ++ [a] := by
  rw [List.take_add_one, List.take_set_of_le (Nat.le_refl k), List.getElem?_set_self h]
  rfl

/-- A list whose element at `k` is replaced, read from behind that element around to it. -/
theorem rotate_set {α : Type} {k : Nat} {l : List α} (h : k < l.length) (a : α) :
    (l.set k a).rotate (k + 1) = (l.rotate k).tail ++ [a] := by
  have hk : k + 1 ≤ (l.set k a).length := by simpa using Nat.succ_le_of_lt h
  rw [List.rotate_eq_drop_append_take hk, List.rotate_eq_drop_append_take h.le,
    take_set_succ h, List.drop_set_of_lt (Nat.lt_succ_self k), List.drop_eq_getElem_cons h,
    List.cons_append, List.tail_cons, List.append_assoc]

/-! ### One event more -/

namespace Ring

/-- The ring is one with `c` places that was given the events `es`, however many. -/
structure Holds (r : Ring) (c : Nat) (es : List Event) : Prop where
  /-- All places are there. -/
  size : r.slots.size = c
  /-- Places are counted up to their number. -/
  capacity : r.capacity = c
  /-- They are written in turn. -/
  head : r.head = es.length % c
  /-- All of them are written as soon as there were enough events. -/
  full : r.full = true ↔ c ≤ es.length
  /-- The newest events can be read. -/
  toList : r.toList = es.rtake c

theorem holds_blank {c : Nat} (hc : 0 < c) : (blank c).Holds c [] where
  size := Array.size_replicate
  capacity := rfl
  head := (Nat.zero_mod c).symm
  full := by simpa [blank] using hc.ne'
  toList := by simp [blank, Ring.toList]

theorem slots_push (r : Ring) (e : Event) :
    (r.push e).slots.toList = r.slots.toList.set r.head e := by
  simp [push]

theorem toList_of_full {r : Ring} (h : r.full = true) (hhead : r.head ≤ r.slots.size) :
    r.toList = r.slots.toList.rotate r.head := by
  rw [toList, if_pos h, List.rotate_eq_drop_append_take (by simpa using hhead)]

theorem toList_of_not_full {r : Ring} (h : ¬ r.full = true) :
    r.toList = r.slots.toList.take r.head := if_neg h

namespace Holds

variable {r : Ring} {c : Nat} {es : List Event}

theorem head_lt (h : r.Holds c es) (hc : 0 < c) : r.head < c := by
  rw [h.head]
  exact Nat.mod_lt _ hc

theorem head_push (h : r.Holds c es) (e : Event) :
    (r.push e).head = (es ++ [e]).length % c := by
  simp only [Ring.push, h.head, h.capacity, Nat.mod_add_mod, List.length_append,
    List.length_singleton]

/-- The ring becomes full with the event that is written to its last place. -/
theorem full_push (h : r.Holds c es) (e : Event) :
    (r.push e).full = true ↔ c ≤ (es ++ [e]).length := by
  have hfull : (r.push e).full = true ↔ r.full = true ∨ (r.push e).head = 0 := by
    simp [Ring.push]
  rw [hfull, h.full, h.head_push, List.length_append, List.length_singleton]
  constructor
  · rintro (hle | hzero)
    · exact Nat.le_succ_of_le hle
    · exact Nat.le_of_dvd (Nat.succ_pos _) (Nat.dvd_of_mod_eq_zero hzero)
  · intro hle
    rcases Nat.lt_or_eq_of_le hle with hlt | heq
    · exact .inl (Nat.le_of_lt_succ hlt)
    · exact .inr (heq ▸ Nat.mod_self c)

/-- A ring whose places are not all written has all its events, from the first place on. -/
theorem take_slots (h : r.Holds c es) (hroom : es.length < c) :
    r.head = es.length ∧ r.slots.toList.take es.length = es := by
  have hhead : r.head = es.length := h.head.trans (Nat.mod_eq_of_lt hroom)
  have hread := toList_of_not_full (mt h.full.1 hroom.not_ge)
  rw [h.toList, rtake_of_length_le hroom.le, hhead] at hread
  exact ⟨hhead, hread.symm⟩

/-- With room for it, a new event comes behind the others. -/
theorem toList_push_of_lt (h : r.Holds c es) (hroom : es.length < c) (e : Event) :
    (r.push e).toList = es ++ [e] := by
  obtain ⟨hhead, htake⟩ := h.take_slots hroom
  have hlt : es.length < r.slots.toList.length := by simpa [h.size] using hroom
  have hwritten : (r.push e).slots.toList.take (es.length + 1) = es ++ [e] := by
    rw [slots_push, hhead, take_set_succ hlt, htake]
  have hhead' : (r.push e).head = (es.length + 1) % c := by simpa using h.head_push e
  rcases Nat.lt_or_eq_of_le (Nat.succ_le_of_lt hroom) with hmore | hlast
  · -- There are still blank places: the ring is read up to the next one.
    have hfull : ¬ (r.push e).full = true := by
      rw [h.full_push]
      simpa using hmore
    rw [toList_of_not_full hfull, hhead', Nat.mod_eq_of_lt hmore, hwritten]
  · -- The last place is written: the next one is the first, and the ring is read as a whole.
    have hfull : (r.push e).full = true := by
      rw [h.full_push]
      simpa using hlast.ge
    have hzero : (r.push e).head = 0 := by rw [hhead', ← Nat.mod_self c, ← hlast]
    have hall : (r.push e).slots.toList.length ≤ es.length + 1 := by
      simp [slots_push, h.size, ← hlast]
    rw [toList_of_full hfull (hzero ▸ Nat.zero_le _), hzero, List.rotate_zero,
      ← List.take_of_length_le hall, hwritten]

/-- Without, the oldest event goes. -/
theorem toList_push_of_le (h : r.Holds c es) (hc : 0 < c) (hfull : c ≤ es.length) (e : Event) :
    (r.push e).toList = r.toList.tail ++ [e] := by
  have hlength : r.slots.toList.length = c := by simpa using h.size
  have hhead : r.head < r.slots.toList.length := hlength ▸ h.head_lt hc
  have hslots : (r.push e).slots.toList.length = c := by rw [slots_push, List.length_set, hlength]
  have hfull' : (r.push e).full = true :=
    (h.full_push e).2 (by simpa using Nat.le_succ_of_le hfull)
  have hhead' : (r.push e).head = (r.head + 1) % c := by simp [Ring.push, h.capacity]
  -- A rotation by the moved head is one by one place more, also when the head wraps.
  calc (r.push e).toList
      = (r.push e).slots.toList.rotate ((r.head + 1) % c) := by
        rw [toList_of_full hfull' _, hhead']
        rw [hhead', ← Array.length_toList, hslots]
        exact (Nat.mod_lt _ hc).le
    _ = (r.slots.toList.set r.head e).rotate (r.head + 1) := by
        rw [← hslots, List.rotate_mod, slots_push]
    _ = (r.slots.toList.rotate r.head).tail ++ [e] := rotate_set hhead e
    _ = r.toList.tail ++ [e] := by
        rw [toList_of_full (h.full.2 hfull) (by simpa using hhead.le)]

/-- **One event more**, at every fill level. -/
theorem push (h : r.Holds c es) (hc : 0 < c) (e : Event) : (r.push e).Holds c (es ++ [e]) where
  size := by simpa [Ring.push] using h.size
  capacity := h.capacity
  head := h.head_push e
  full := h.full_push e
  toList := by
    rcases Nat.lt_or_ge es.length c with hroom | hfull
    · rw [h.toList_push_of_lt hroom, rtake_of_length_le (by simpa using Nat.succ_le_of_lt hroom)]
    · rw [h.toList_push_of_le hc hfull, h.toList, rtake_concat_of_le_length hfull hc]

end Holds

end Ring

/-! ### Numbered events -/

/-- The events `stored` are the events `es` under new numbers, which increase and lie above `low`
and up to `high`. -/
structure Numbered (low high : Nat) (es stored : List Event) : Prop where
  /-- Only the numbers are new. -/
  unchanged : List.Forall₂ (fun e s => s = { e with seq := s.seq }) es stored
  /-- The numbers increase. -/
  increasing : (stored.map Event.seq).Pairwise (· < ·)
  /-- The numbers lie in the given range. -/
  within : ∀ s ∈ stored, low < s.seq ∧ s.seq ≤ high

namespace Numbered

variable {low high high' : Nat} {es stored : List Event}

theorem nil : Numbered low high [] [] where
  unchanged := .nil
  increasing := .nil
  within := by simp

theorem mono (h : Numbered low high es stored) (hle : high ≤ high') :
    Numbered low high' es stored where
  unchanged := h.unchanged
  increasing := h.increasing
  within s hs := ⟨(h.within s hs).1, (h.within s hs).2.trans hle⟩

/-- One event more, under a number above all others. -/
theorem concat (h : Numbered low high es stored) (hlow : low ≤ high) (hlt : high < high')
    (e : Event) : Numbered low high' (es ++ [e]) (stored ++ [{ e with seq := high' }]) where
  unchanged := List.rel_append h.unchanged (.cons rfl .nil)
  increasing := by
    rw [List.map_append, List.pairwise_append]
    refine ⟨h.increasing, List.pairwise_singleton _ _, ?_⟩
    simp only [List.mem_map, forall_exists_index, and_imp, forall_apply_eq_imp_iff₂,
      List.map_cons, List.map_nil, List.mem_singleton, forall_eq]
    exact fun s hs => (h.within s hs).2.trans_lt hlt
  within := by
    rw [List.forall_mem_append]
    refine ⟨(h.mono hlt.le).within, ?_⟩
    simpa using hlow.trans_lt hlt

/-- The last ones of numbered events. -/
theorem rtake (h : Numbered low high es stored) (n : Nat) :
    Numbered low high (es.rtake n) (stored.rtake n) where
  unchanged := by
    rw [List.rtake, List.rtake, h.unchanged.length_eq]
    exact List.forall₂_drop _ h.unchanged
  increasing := by
    rw [List.rtake, List.map_drop]
    exact h.increasing.drop
  within s hs := h.within s (List.mem_of_mem_drop hs)

end Numbered

/-! ### Runs of a tracer -/

namespace Tracer

/-- The events that the level of a tracer records. -/
def recorded (t : Tracer) (es : List Event) : List Event :=
  es.filter fun e => t.level.records e.scope

theorem recorded_concat_of_records {t : Tracer} {es : List Event} {e : Event}
    (h : t.level.records e.scope = true) : t.recorded (es ++ [e]) = t.recorded es ++ [e] := by
  simp [recorded, h]

theorem recorded_concat_of_not_records {t : Tracer} {es : List Event} {e : Event}
    (h : ¬ t.level.records e.scope = true) : t.recorded (es ++ [e]) = t.recorded es := by
  simp [recorded, h]

/-- The tracer has become another one by emitting events.  Sequence numbers are shared with other
tracers, so some may be gone between two events. -/
inductive Emits (t : Tracer) : List Event → Tracer → Prop
  /-- Nothing was emitted yet. -/
  | start : t.Emits [] t
  /-- One event more is emitted. -/
  | emit {es : List Event} {u : Tracer} (e : Event) : t.Emits es u → t.Emits (es ++ [e]) (u.emit e)
  /-- Others take numbers, and time passes. -/
  | elapse {es : List Event} {u : Tracer} (seq spans : Nat) (now : Instant) : u.seq ≤ seq →
      t.Emits es u → t.Emits es { u with seq, spans, now }

theorem emits_foldl (t : Tracer) (es : List Event) : t.Emits es (es.foldl emit t) := by
  induction es using List.reverseRecOn with
  | nil => exact .start
  | append_singleton es e ih =>
    rw [List.foldl_concat]
    exact .emit e ih

@[simp] theorem level_emit (t : Tracer) (e : Event) : (t.emit e).level = t.level := by
  unfold emit toRing toStream
  grind

/-- What a tracer with a ring does with an event that its level records. -/
theorem emit_of_records {t : Tracer} {r : Ring} (hring : t.ring = some r) {e : Event}
    (h : t.level.records e.scope = true) :
    t.seq < (t.emit e).seq ∧
      (t.emit e).ring = some (r.push { e with seq := (t.emit e).seq }) := by
  rw [emit, if_pos h]
  cases hstream : t.stream with
  | none => simp [toStream, toRing, hstream, hring]
  | some written =>
    simp only [toStream, toRing, hstream, hring, and_true]
    omega

theorem emit_of_not_records {t : Tracer} {e : Event} (h : ¬ t.level.records e.scope = true) :
    t.emit e = t := if_neg h

/-- The tracer `u`, which comes after `t`, has given the events `es` to a ring with `c` places. -/
structure Stores (t : Tracer) (c : Nat) (es : List Event) (u : Tracer) : Prop where
  /-- The level is that of the first tracer. -/
  level : u.level = t.level
  /-- No number is used again. -/
  seq_le : t.seq ≤ u.seq
  /-- The ring has the newest events, under their numbers. -/
  ring : ∃ r stored, u.ring = some r ∧ r.Holds c stored ∧ Numbered t.seq u.seq es stored

namespace Stores

variable {t u : Tracer} {c : Nat} {es : List Event}

theorem start (hc : 0 < c) (hring : t.ring = some (.empty c)) : t.Stores c [] t where
  level := rfl
  seq_le := Nat.le_refl _
  ring := by
    have hempty : Ring.empty c = .blank c := by simp [Ring.empty, hc]
    exact ⟨_, [], hring, hempty ▸ Ring.holds_blank hc, .nil⟩

/-- An event that the level records goes into the ring. -/
theorem emit (hc : 0 < c) (h : t.Stores c es u) {e : Event}
    (he : t.level.records e.scope = true) : t.Stores c (es ++ [e]) (u.emit e) := by
  obtain ⟨r, stored, hring, hholds, hnumbered⟩ := h.ring
  obtain ⟨hseq, hpush⟩ := emit_of_records hring (by rwa [h.level])
  exact ⟨by rw [level_emit, h.level], h.seq_le.trans hseq.le, _, _, hpush, hholds.push hc _,
    hnumbered.concat h.seq_le hseq e⟩

theorem elapse (h : t.Stores c es u) {seq : Nat} (hseq : u.seq ≤ seq) (spans : Nat)
    (now : Instant) : t.Stores c es { u with seq, spans, now } := by
  obtain ⟨r, stored, hring, hholds, hnumbered⟩ := h.ring
  exact ⟨h.level, h.seq_le.trans hseq, r, stored, hring, hholds, hnumbered.mono hseq⟩

end Stores

namespace Emits

variable {t u : Tracer} {c : Nat} {es : List Event}

theorem stores (hc : 0 < c) (hring : t.ring = some (.empty c)) (h : t.Emits es u) :
    t.Stores c (t.recorded es) u := by
  -- What is stored counts all recorded events, also those that the ring has lost by now.
  induction h with
  | start => exact .start hc hring
  | @emit es u e h ih =>
    by_cases he : t.level.records e.scope = true
    · rw [recorded_concat_of_records he]
      exact ih.emit hc he
    · rw [recorded_concat_of_not_records he, emit_of_not_records (by rwa [ih.level])]
      exact ih
  | elapse seq spans now hseq h ih => exact ih.elapse hseq spans now

/-- **A ring keeps the newest events.**  However many events a tracer with an empty ring of `c`
places emits, if its level records `k` of them, the ring holds the last `min c k` of these, oldest
first, under increasing numbers and otherwise unchanged. -/
theorem kept_newest (hc : 0 < c) (hring : t.ring = some (.empty c)) (h : t.Emits es u) :
    Numbered t.seq u.seq ((t.recorded es).rtake (min c (t.recorded es).length)) u.kept := by
  obtain ⟨r, stored, hr, hholds, hnumbered⟩ := (h.stores hc hring).ring
  rw [rtake_min_length, kept, hr, Option.map_some, Option.getD_some, hholds.toList]
  exact hnumbered.rtake c

end Emits

/-- A point with nothing but a scope and a name. -/
def remark (scope : Scope) (name : Text) : Event := { kind := .point, scope, name }

/-- Points of a unit and its passes, with one about a statement among them. -/
def flurry : List Event :=
  [remark .driver "start", remark .pass "collect", remark .statement "nop",
    remark .pass "generate"]

/-- Four recorded events for two places, which are both taken twice.  Another tracer takes a number
before the last event. -/
theorem kept_newest_flurry :
    ∃ u, (make .phase .ring 2).Emits (flurry ++ [remark .driver "stop"]) u ∧
      Numbered 0 u.seq [remark .pass "generate", remark .driver "stop"] u.kept ∧
      u.kept.map Event.seq = [3, 5] := by
  let u : Tracer := flurry.foldl emit (make .phase .ring 2)
  have h : (make .phase .ring 2).Emits (flurry ++ [remark .driver "stop"])
      (emit { u with seq := u.seq + 1 } (remark .driver "stop")) :=
    .emit _ (.elapse _ u.spans u.now (Nat.le_succ _) (emits_foldl _ flurry))
  exact ⟨_, h, h.kept_newest (c := 2) (by decide) rfl, by decide⟩

end Tracer

end StumpGen.Trace
