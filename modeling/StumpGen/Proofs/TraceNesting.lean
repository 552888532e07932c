import StumpGen.Proofs.TracedCalls

/-!
# Traces are well nested

A span is numbered when it is opened, and what its holder keeps of it says the same of it when it is
closed.  A span that the level does not record has no number; what is done in it goes into the span
around it.  So balanced calls (`Balanced`) leave nested events (`Nested`), whatever the level:

* `Recorded` : the events of some calls, with their numbers.  They can be appended, and enclosed in
  a span.
* `Balanced.leaves` : what a tracer with a stream writes of balanced calls.
* `trace_nested` : **the trace of a compilation or a job is well nested**, whatever stops it.
-/

namespace StumpGen.Trace

/-! ### Nested events -/

/-- The span that an event lies in while the spans `outer` are open, the innermost first. -/
def inmost (ambient : Nat) : List Event → Nat
  | [] => ambient
  | o :: _ => o.span

/-- An event that says of a span what the event that opened it says. -/
structure Event.Ends (e o : Event) : Prop where
  /-- The same number. -/
  span : e.span = o.span
  /-- The same span around it. -/
  parent : e.parent = o.parent
  /-- The same scope. -/
  scope : e.scope = o.scope
  /-- The same name. -/
  name : e.name = o.name

/-- Events that come while the spans `outer` are open, the innermost first, inside a span `ambient`.
An event that closes a span belongs to the one that was opened last, all others lie in the innermost
open span, and at the end no span is open. -/
inductive Nested (ambient : Nat) : List Event → List Event → Prop
  /-- All spans are closed. -/
  | done : Nested ambient [] []
  /-- A span is opened. -/
  | opened {e : Event} {outer es : List Event} : e.kind = .opened →
      e.parent = inmost ambient outer → Nested ambient (e :: outer) es →
      Nested ambient outer (e :: es)
  /-- The innermost span is closed. -/
  | closed {e o : Event} {outer es : List Event} : e.kind = .closed → e.Ends o →
      Nested ambient outer es → Nested ambient (o :: outer) (e :: es)
  /-- Something happens. -/
  | point {e : Event} {outer es : List Event} : e.kind = .point → e.parent = inmost ambient outer →
      Nested ambient outer es → Nested ambient outer (e :: es)

/-- The numbers that events give to new spans and points. -/
def newSpans (es : List Event) : List Nat :=
  (es.filter fun e => e.kind ≠ .closed).map Event.span

@[simp] theorem newSpans_append (es es' : List Event) :
    newSpans (es ++ es') = newSpans es ++ newSpans es' := by
  simp [newSpans]

/-- The mark of an event. -/
def Event.mark (e : Event) : Mark := { kind := e.kind, scope := e.scope, name := e.name }

variable {level : Level} {seq spans parent : Nat}

/-- The events that calls with given marks leave behind, when they are made inside a span after
given numbers were used. -/
structure Recorded (level : Level) (seq spans parent : Nat) (marks : List Mark)
    (es : List Event) : Prop where
  /-- The events are numbered one after another. -/
  seqs : es.map Event.seq = List.range' (seq + 1) es.length
  /-- Spans and points are numbered one after another. -/
  ids : newSpans es = List.range' (spans + 1) (newSpans es).length
  /-- There is an event for each mark whose scope is recorded. -/
  marks : es.map Event.mark = marks.filter fun m => level.records m.scope
  /-- The events leave the open spans as they were. -/
  nested : ∀ {ambient : Nat} {outer rest : List Event}, inmost ambient outer = parent →
    Nested ambient outer rest → Nested ambient outer (es ++ rest)

namespace Recorded

variable {ms ms' : List Mark} {es es' : List Event}

theorem nil : Recorded level seq spans parent [] [] where
  seqs := rfl
  ids := rfl
  marks := rfl
  nested _ h := h

theorem append (h : Recorded level seq spans parent ms es)
    (h' : Recorded level (seq + es.length) (spans + (newSpans es).length) parent ms' es') :
    Recorded level seq spans parent (ms ++ ms') (es ++ es') where
  seqs := by
    rw [List.map_append, h.seqs, h'.seqs, List.length_append, ← List.range'_append_1]
    congr 2
    omega
  ids := by
    rw [newSpans_append, List.length_append, ← List.range'_append_1, ← h.ids]
    rw [h'.ids, List.length_range']
    congr 2
    omega
  marks := by rw [List.map_append, List.filter_append, h.marks, h'.marks]
  nested hin hrest := by
    rw [List.append_assoc]
    exact h.nested hin (h'.nested hin hrest)

/-- A point. -/
theorem point {e : Event} (hseq : e.seq = seq + 1) (hspan : e.span = spans + 1)
    (hparent : e.parent = parent) (hkind : e.kind = .point)
    (hrecorded : level.records e.scope = true) :
    Recorded level seq spans parent [e.mark] [e] where
  seqs := by simp [hseq]
  ids := by simp [newSpans, hkind, hspan]
  marks := by simp [Event.mark, hrecorded]
  nested hin hrest := .point hkind (hparent.trans hin.symm) hrest

/-- A span, with what was recorded inside it. -/
theorem span {o c : Event} (h : Recorded level (seq + 1) (spans + 1) (spans + 1) ms es)
    (hseq : o.seq = seq + 1) (hspan : o.span = spans + 1) (hparent : o.parent = parent)
    (hopened : o.kind = .opened) (hrecorded : level.records o.scope = true)
    (hseq' : c.seq = seq + 1 + es.length + 1) (hclosed : c.kind = .closed) (hends : c.Ends o) :
    Recorded level seq spans parent (o.mark :: (ms ++ [c.mark])) (o :: (es ++ [c])) where
  seqs := by
    simp only [List.map_cons, List.map_append, List.map_nil, hseq, h.seqs, hseq',
      List.length_cons, List.length_append, List.length_nil]
    rw [List.range'_succ, ← List.range'_append_1]
    congr 3
    omega
  ids := by
    have hnew : newSpans (o :: (es ++ [c])) = o.span :: newSpans es := by
      simp [newSpans, hopened, hclosed]
    rw [hnew, List.length_cons, List.range'_succ, hspan, ← h.ids]
  marks := by
    have hrecorded' : level.records c.scope = true := by rw [hends.scope, hrecorded]
    simp [Event.mark, hrecorded, hrecorded', h.marks]
  nested hin hrest := by
    rw [List.cons_append, List.append_assoc]
    exact .opened hopened (hparent.trans hin.symm)
      (h.nested hspan (.closed hclosed hends hrest))

/-- A span that is not recorded. -/
theorem skip {scope : Scope} (h : Recorded level seq spans parent ms es)
    (hscope : ¬ level.records scope = true) (name : Text) :
    Recorded level seq spans parent
      ({ kind := .opened, scope, name } :: (ms ++ [{ kind := .closed, scope, name }])) es where
  seqs := h.seqs
  ids := h.ids
  marks := by simp [h.marks, hscope]
  nested := h.nested

end Recorded

/-! ### Tracers that write to a stream -/

/-- What is recorded of a scope is recorded of wider ones. -/
theorem Level.records_of_le {s s' : Scope} (hle : s.depth ≤ s'.depth)
    (h : level.records s' = true) : level.records s = true := by
  cases level with
  | off => exact h
  | error | phase | detail =>
    rw [Level.records, decide_eq_true_eq] at h ⊢
    exact UInt8.le_trans hle h
  | debug => rfl

namespace Tracer

variable {t : Tracer}

/-- The tracer writes to a stream, and keeps nothing. -/
structure Streams (t : Tracer) : Prop where
  stream : t.stream.isSome
  ring : t.ring = none

/-- The tracer once it has written events. -/
def after (t : Tracer) (es : List Event) : Tracer :=
  { t with
    stream := t.stream.map (· ++ es.toArray)
    seq := t.seq + es.length
    spans := t.spans + (newSpans es).length }

@[simp] theorem after_nil (t : Tracer) : t.after [] = t := by
  obtain ⟨level, stream, ring, seq, spans, now⟩ := t
  cases stream <;> simp [after, newSpans]

theorem after_append (t : Tracer) (es es' : List Event) :
    t.after (es ++ es') = (t.after es).after es' := by
  obtain ⟨level, stream, ring, seq, spans, now⟩ := t
  cases stream <;> simp [after, Nat.add_assoc]

theorem Streams.after (h : t.Streams) (es : List Event) : (t.after es).Streams where
  stream := by simpa [Tracer.after] using h.stream
  ring := h.ring

/-- The event that opens the next span. -/
def opener (t : Tracer) (parent : Nat) (scope : Scope) (name : Text) : Event :=
  { time := t.now, seq := t.seq + 1, kind := .opened, scope, span := t.spans + 1, parent, name }

/-- The event of the next point. -/
def pointer (t : Tracer) (parent : Nat) (scope : Scope) (name detail : Text) : Event :=
  { t.opener parent scope name with kind := .point, detail }

/-- The event that closes a span. -/
def closer (t : Tracer) (s : Span) (detail : Text) : Event :=
  { time := t.now, seq := t.seq + 1, kind := .closed, scope := s.scope, span := s.id,
    parent := s.parent, name := s.name, detail, extras := s.extras }

namespace Streams

theorem emit (h : t.Streams) {e : Event} (he : t.level.records e.scope = true) :
    t.emit e = { t with
      stream := t.stream.map (·.push { e with seq := t.seq + 1 }), seq := t.seq + 1 } := by
  obtain ⟨written, hw⟩ := Option.isSome_iff_exists.1 h.stream
  simp [Tracer.emit, toStream, toRing, he, hw, h.ring]

theorem numbered (h : t.Streams) : Streams { t with spans := t.spans + 1 } := ⟨h.stream, h.ring⟩

theorem opening (h : t.Streams) {scope : Scope} (hs : t.level.records scope = true) (name : Text)
    (parent : Nat) :
    t.opening scope name parent =
      ({ id := t.spans + 1, parent, scope, name }, t.after [t.opener parent scope name]) := by
  rw [Tracer.opening, if_pos hs]
  refine congrArg (Prod.mk _) ((h.numbered.emit (by exact hs)).trans ?_)
  simp [Tracer.after, opener, newSpans]

theorem point (h : t.Streams) {scope : Scope} (hs : t.level.records scope = true)
    (name detail : Text) (parent : Nat) :
    t.point scope name detail parent = t.after [t.pointer parent scope name detail] := by
  rw [Tracer.point, if_pos hs]
  refine (h.numbered.emit (by exact hs)).trans ?_
  simp [Tracer.after, pointer, opener, newSpans]

theorem closing (h : t.Streams) {s : Span} (hid : s.id ≠ 0) (hs : t.level.records s.scope = true)
    (detail : Text) : t.closing s detail = t.after [t.closer s detail] := by
  rw [Tracer.closing, if_neg hid]
  refine (h.emit hs).trans ?_
  simp [Tracer.after, closer, newSpans]

theorem annotate (h : t.Streams) (s : Span) (key value : Text) :
    (t.annotate s key value).2 = t ∧ ∃ extras, (t.annotate s key value).1 = { s with extras } := by
  rw [Tracer.annotate]
  split
  · exact ⟨rfl, s.extras, rfl⟩
  · obtain ⟨level, stream, ring, seq, spans, now⟩ := t
    obtain rfl : ring = none := h.ring
    exact ⟨rfl, _, rfl⟩

end Streams

end Tracer

/-! ### What a tracer writes of balanced calls -/

namespace Session

variable {s s' s'' : Session} {ambient : Nat} {frames : List (Holder × Scope)} {h : Holder}

theorem performAll_append (ambient : Nat) (s : Session) (calls calls' : List Call) :
    s.performAll ambient (calls ++ calls') =
      (s.performAll ambient calls).performAll ambient calls' :=
  List.foldl_append

theorem current_congr {context : Context} (hheld : ∀ x ∈ context, s'.held x = s.held x) :
    s'.current ambient context = s.current ambient context := by
  induction context with
  | nil => rfl
  | cons x context ih =>
    obtain ⟨hx, hcontext⟩ := List.forall_mem_cons.1 hheld
    rw [current, current, hx, ih hcontext]

/-- The open spans that are recorded have numbers. -/
def Live (s : Session) (frames : List (Holder × Scope)) : Prop :=
  ∀ f ∈ frames, s.tracer.level.records f.2 = true → (s.held f.1).id ≠ 0

/-- With some marks, the session has become another one that has written the events `es`; the open
spans are still held. -/
structure Leaves (ambient : Nat) (frames : List (Holder × Scope)) (s s' : Session)
    (marks : List Mark) (es : List Event) : Prop where
  /-- The events are written. -/
  tracer : s'.tracer = s.tracer.after es
  /-- The open spans are held as before. -/
  held : ∀ f ∈ frames, s'.held f.1 = s.held f.1
  /-- The events are those of the marks, inside the innermost open span. -/
  recorded : Recorded s.tracer.level s.tracer.seq s.tracer.spans
    (s.current ambient (frames.map Prod.fst)) marks es

namespace Leaves

variable {ms ms' : List Mark} {es es' : List Event}

theorem current (h : Leaves ambient frames s s' ms es) :
    s'.current ambient (frames.map Prod.fst) = s.current ambient (frames.map Prod.fst) := by
  refine current_congr fun x hx => ?_
  obtain ⟨f, hf, rfl⟩ := List.mem_map.1 hx
  exact h.held f hf

theorem live (h : Leaves ambient frames s s' ms es) (hs : s.Live frames) : s'.Live frames := by
  intro f hf hrecords
  rw [h.held f hf]
  rw [h.tracer] at hrecords
  exact hs f hf hrecords

theorem refl : Leaves ambient frames s s [] [] where
  tracer := (Tracer.after_nil _).symm
  held _ _ := rfl
  recorded := .nil

theorem streams (h : Leaves ambient frames s s' ms es) (hs : s.tracer.Streams) :
    s'.tracer.Streams := h.tracer ▸ hs.after es

theorem trans (h : Leaves ambient frames s s' ms es) (h' : Leaves ambient frames s' s'' ms' es') :
    Leaves ambient frames s s'' (ms ++ ms') (es ++ es') where
  tracer := by rw [h'.tracer, h.tracer, Tracer.after_append]
  held f hf := (h'.held f hf).trans (h.held f hf)
  recorded := by
    have hrecorded := h'.recorded
    rw [h.current, h.tracer] at hrecorded
    exact h.recorded.append hrecorded

end Leaves

theorem ne_of_mem (hfree : h ∉ frames.map Prod.fst) {f : Holder × Scope} (hf : f ∈ frames) :
    f.1 ≠ h := by
  rintro rfl
  exact hfree (List.mem_map_of_mem hf)

@[simp] theorem held_hold_self (s : Session) (h : Holder) (given : Span × Tracer) :
    (s.hold h given).held h = given.1 := if_pos rfl

theorem held_hold_of_ne (s : Session) {h x : Holder} (hx : x ≠ h) (given : Span × Tracer) :
    (s.hold h given).held x = s.held x := if_neg hx

/-- Remarks go to the span of their holder, and nothing is written. -/
theorem performAll_remarks (ambient : Nat) (h : Holder) (hs : s.tracer.Streams)
    (remarks : List (Text × Text)) :
    ∃ s', s.performAll ambient (remarks.map fun r => .annotating h r.1 r.2) = s' ∧
      s'.tracer = s.tracer ∧ (∀ x, x ≠ h → s'.held x = s.held x) ∧
      ∃ extras, s'.held h = { s.held h with extras } := by
  induction remarks generalizing s with
  | nil => exact ⟨s, rfl, rfl, fun _ _ => rfl, (s.held h).extras, rfl⟩
  | cons r remarks ih =>
    obtain ⟨htracer, extras, hspan⟩ := hs.annotate (s.held h) r.1 r.2
    have hs₁ : (s.perform ambient (.annotating h r.1 r.2)).tracer.Streams := by
      rwa [perform, hold, htracer]
    obtain ⟨s', hperform, ht, hother, extras', hself⟩ := ih hs₁
    refine ⟨s', hperform, ht.trans htracer, fun x hx => ?_, extras', ?_⟩
    · rw [hother x hx, perform, held_hold_of_ne s hx]
    · rw [hself, perform, held_hold_self, hspan]

/-- The end of a span, with its remarks. -/
def endCalls (h : Holder) (remarks : List (Text × Text)) (detail : Text) : List Call :=
  remarks.map (fun r => .annotating h r.1 r.2) ++ [.closing h detail]

theorem performAll_endCalls (ambient : Nat) (h : Holder) (hs : s.tracer.Streams)
    (remarks : List (Text × Text)) (detail : Text) :
    ∃ s' extras, s.performAll ambient (endCalls h remarks detail) = s' ∧
      s'.tracer = s.tracer.closing { s.held h with extras } detail ∧
      ∀ x, x ≠ h → s'.held x = s.held x := by
  obtain ⟨s', hremarks, ht, hother, extras, hself⟩ := performAll_remarks ambient h hs remarks
  refine ⟨s'.perform ambient (.closing h detail), extras, ?_, ?_, hother⟩
  · rw [endCalls, performAll_append, hremarks]
    rfl
  · rw [perform, ht, hself]

/-- A point is written in the innermost span, which is recorded if the point is. -/
theorem leaves_point (ambient : Nat) {around scope : Scope} (hs : s.tracer.Streams)
    (hlive : s.Live ((h, around) :: frames)) (haround : around.depth ≤ scope.depth)
    (name detail : Text) :
    ∃ es, Leaves ambient ((h, around) :: frames) s
      (s.perform ambient (.point h scope name detail)) [{ kind := .point, scope, name }] es := by
  by_cases hscope : s.tracer.level.records scope = true
  · have hid : (s.held h).id ≠ 0 := hlive _ List.mem_cons_self (Level.records_of_le haround hscope)
    let e := s.tracer.pointer (s.held h).id scope name detail
    refine ⟨[e], ?_, fun _ _ => rfl, ?_⟩
    · rw [perform, hs.point hscope]
    · rw [List.map_cons, Session.current, if_neg hid]
      exact .point (e := e) rfl rfl rfl rfl hscope
  · refine ⟨[], ?_, fun _ _ => rfl, ?_⟩
    · rw [perform, Tracer.point, if_neg hscope, Tracer.after_nil]
    · exact ⟨rfl, rfl, by simp [hscope], fun _ h => h⟩

section Span

variable {scope : Scope} {s₂ : Session} {ms : List Mark} {es : List Event}

/-- The span that is given to a holder that opens one. -/
def given (s : Session) (ambient : Nat) (scope : Scope) (name : Text) (context : Context) : Span :=
  { id := s.tracer.spans + 1, parent := s.current ambient context, scope, name }

theorem perform_opening (hs : s.tracer.Streams) (hscope : s.tracer.level.records scope = true)
    (ambient : Nat) (h : Holder) (name : Text) (context : Context) :
    s.perform ambient (.opening h scope name context) =
      s.hold h (s.given ambient scope name context,
        s.tracer.after [s.tracer.opener (s.current ambient context) scope name]) := by
  rw [perform, hs.opening hscope]
  rfl

theorem perform_opening_of_not_records (hscope : ¬ s.tracer.level.records scope = true)
    (ambient : Nat) (h : Holder) (name : Text) (context : Context) :
    s.perform ambient (.opening h scope name context) = s.hold h ({}, s.tracer) := by
  rw [perform, Tracer.opening, if_neg hscope]

/-- A holder that has no open span may get one, if that has a number where it is recorded. -/
theorem Live.hold (hlive : s.Live frames) (hfree : h ∉ frames.map Prod.fst) {given : Span × Tracer}
    (hlevel : given.2.level = s.tracer.level)
    (hid : s.tracer.level.records scope = true → given.1.id ≠ 0) :
    (s.hold h given).Live ((h, scope) :: frames) := by
  have hlevel' : (s.hold h given).tracer.level = s.tracer.level := hlevel
  intro f hf hrecords
  rw [hlevel'] at hrecords
  rcases List.mem_cons.1 hf with rfl | hf
  · rw [held_hold_self]
    exact hid hrecords
  · rw [held_hold_of_ne s (ne_of_mem hfree hf)]
    exact hlive f hf hrecords

/-- After a span is opened the recorded ones have numbers again. -/
theorem Live.opening (hlive : s.Live frames) (hs : s.tracer.Streams)
    (hfree : h ∉ frames.map Prod.fst) (ambient : Nat) (name : Text) (context : Context) :
    (s.perform ambient (.opening h scope name context)).Live ((h, scope) :: frames) := by
  by_cases hscope : s.tracer.level.records scope = true
  · rw [perform_opening hs hscope]
    exact hlive.hold hfree rfl fun _ => Nat.succ_ne_zero _
  · rw [perform_opening_of_not_records hscope]
    exact hlive.hold hfree rfl fun hrecords => absurd hrecords hscope

theorem streams_opening (hs : s.tracer.Streams) (ambient : Nat) (name : Text)
    (context : Context) :
    (s.perform ambient (.opening h scope name context)).tracer.Streams := by
  by_cases hscope : s.tracer.level.records scope = true
  · rw [perform_opening hs hscope]
    exact hs.after _
  · rwa [perform_opening_of_not_records hscope]

/-- The spans around a new one are held as before when it has ended. -/
theorem Leaves.held_around {given : Span × Tracer} (hfree : h ∉ frames.map Prod.fst)
    (hinner : Leaves ambient ((h, scope) :: frames) (s.hold h given) s₂ ms es)
    (hother : ∀ x, x ≠ h → s'.held x = s₂.held x) : ∀ f ∈ frames, s'.held f.1 = s.held f.1 := by
  intro f hf
  rw [hother _ (ne_of_mem hfree hf), hinner.held f (List.mem_cons_of_mem _ hf),
    held_hold_of_ne s (ne_of_mem hfree hf)]

/-- **A span that is recorded** encloses what is written in it. -/
theorem Leaves.span (hs : s.tracer.Streams) (hfree : h ∉ frames.map Prod.fst)
    (hscope : s.tracer.level.records scope = true) {name : Text}
    (hinner : Leaves ambient ((h, scope) :: frames)
      (s.perform ambient (.opening h scope name (frames.map Prod.fst))) s₂ ms es)
    (remarks : List (Text × Text)) (detail : Text) :
    ∃ es, Leaves ambient frames s (s₂.performAll ambient (endCalls h remarks detail))
      ({ kind := .opened, scope, name } :: (ms ++ [{ kind := .closed, scope, name }])) es := by
  rw [perform_opening hs hscope] at hinner
  let o := s.tracer.opener (s.current ambient (frames.map Prod.fst)) scope name
  have hs₂ : s₂.tracer.Streams := hinner.tracer ▸ (hs.after [o]).after es
  have hheld : s₂.held h = s.given ambient scope name (frames.map Prod.fst) := by
    rw [hinner.held _ List.mem_cons_self, held_hold_self]
  obtain ⟨s₃, extras, hperform, htracer, hother⟩ := performAll_endCalls ambient h hs₂ remarks detail
  rw [hheld] at htracer
  let c := s₂.tracer.closer { s.given ambient scope name (frames.map Prod.fst) with extras } detail
  have hclosing : s₃.tracer = s₂.tracer.after [c] := by
    rw [htracer]
    refine hs₂.closing (Nat.succ_ne_zero _) ?_ detail
    rw [hinner.tracer]
    exact hscope
  rw [hperform]
  refine ⟨o :: (es ++ [c]), ?_, hinner.held_around hfree hother, ?_⟩
  · rw [hclosing, hinner.tracer, ← Tracer.after_append]
    exact (Tracer.after_append _ [o] _).symm
  · have hrecorded := hinner.recorded
    have hseq : c.seq = s.tracer.seq + 1 + es.length + 1 := by
      simp only [c, Tracer.closer, hinner.tracer]
      rfl
    rw [List.map_cons, Session.current, held_hold_self] at hrecorded
    exact hrecorded.span (o := o) (c := c) rfl rfl rfl rfl hscope hseq rfl ⟨rfl, rfl, rfl, rfl⟩

/-- A span that is not recorded leaves what is written in it to the span around it. -/
theorem Leaves.skip (hs : s.tracer.Streams) (hfree : h ∉ frames.map Prod.fst)
    (hscope : ¬ s.tracer.level.records scope = true) {name : Text}
    (hinner : Leaves ambient ((h, scope) :: frames)
      (s.perform ambient (.opening h scope name (frames.map Prod.fst))) s₂ ms es)
    (remarks : List (Text × Text)) (detail : Text) :
    Leaves ambient frames s (s₂.performAll ambient (endCalls h remarks detail))
      ({ kind := .opened, scope, name } :: (ms ++ [{ kind := .closed, scope, name }])) es := by
  rw [perform_opening_of_not_records hscope] at hinner
  have hs₂ : s₂.tracer.Streams := hinner.tracer ▸ hs.after es
  have hheld : s₂.held h = {} := by rw [hinner.held _ List.mem_cons_self, held_hold_self]
  obtain ⟨s₃, extras, hperform, htracer, hother⟩ := performAll_endCalls ambient h hs₂ remarks detail
  rw [hheld] at htracer
  rw [hperform]
  refine ⟨?_, hinner.held_around hfree hother, ?_⟩
  · rw [htracer]
    exact hinner.tracer
  · have hrecorded := hinner.recorded
    have hcurrent : (s.hold h ({}, s.tracer)).current ambient (frames.map Prod.fst) =
        s.current ambient (frames.map Prod.fst) := by
      refine current_congr fun x hx => held_hold_of_ne s ?_ _
      rintro rfl
      exact hfree hx
    rw [List.map_cons, Session.current, held_hold_self, if_pos rfl, hcurrent] at hrecorded
    exact hrecorded.skip hscope name

/-- A span, recorded or not, with what is done in it. -/
theorem Leaves.enclose (hs : s.tracer.Streams) (hfree : h ∉ frames.map Prod.fst) {name : Text}
    (hinner : Leaves ambient ((h, scope) :: frames)
      (s.perform ambient (.opening h scope name (frames.map Prod.fst))) s₂ ms es)
    (remarks : List (Text × Text)) (detail : Text) :
    ∃ es, Leaves ambient frames s (s₂.performAll ambient (endCalls h remarks detail))
      ({ kind := .opened, scope, name } :: (ms ++ [{ kind := .closed, scope, name }])) es := by
  by_cases hscope : s.tracer.level.records scope = true
  · exact hinner.span hs hfree hscope remarks detail
  · exact ⟨es, hinner.skip hs hfree hscope remarks detail⟩

end Span

end Session

/-- **What a tracer writes of balanced calls** is nested, and numbered one after another. -/
theorem Balanced.leaves {frames : List (Holder × Scope)} {calls : List Call} {ms : List Mark}
    (hb : Balanced frames calls ms) (ambient : Nat) {s : Session} (hs : s.tracer.Streams)
    (hlive : s.Live frames) :
    ∃ es, Session.Leaves ambient frames s (s.performAll ambient calls) ms es := by
  induction hb generalizing s with
  | nil => exact ⟨[], .refl⟩
  | @point h around scope frames name calls ms detail hdepth haround hcalls ih =>
    obtain ⟨es, hpoint⟩ := Session.leaves_point ambient hs hlive haround name detail
    obtain ⟨es', hrest⟩ := ih (hpoint.streams hs) (hpoint.live hlive)
    exact ⟨es ++ es', hpoint.trans hrest⟩
  | @span h scope frames name inner rest ms ms' remarks detail hdepth hfree _ _ ihinner ihrest =>
    let context := frames.map Prod.fst
    obtain ⟨es, hinner⟩ := ihinner (Session.streams_opening hs ambient name context)
      (hlive.opening hs hfree ambient name context)
    obtain ⟨es₁, hspan⟩ := hinner.enclose hs hfree remarks detail
    obtain ⟨es₂, hrest⟩ := ihrest (hspan.streams hs) (hspan.live hlive)
    refine ⟨es₁ ++ es₂, ?_⟩
    have hall := hspan.trans hrest
    simpa [context, Session.performAll, Session.endCalls] using hall

theorem renderAll?_isSome (f : Format) {es : List Event} (h : ∀ e ∈ es, e.scope.depth ≠ 0) :
    (Event.renderAll? f es).isSome := by
  induction es with
  | nil => rfl
  | cons e es ih =>
    obtain ⟨he, hes⟩ := List.forall_mem_cons.1 h
    have hrender : (Event.render? f e).isSome := by
      rw [Event.render?, Event.line?, if_neg he]
      split <;> rfl
    obtain ⟨text, htext⟩ := Option.isSome_iff_exists.1 hrender
    obtain ⟨texts, htexts⟩ := Option.isSome_iff_exists.1 (ih hes)
    simp [Event.renderAll?, htext, htexts]

/-! ### Whole traces -/

/-- The events that a tracer appends for calls that are made inside a span `ambient`. -/
structure WellNested (t : Tracer) (ambient : Nat) (calls : List Call) (es : List Event) : Prop where
  /-- Spans are closed in the opposite order in which they were opened, all of them. -/
  nested : Nested ambient [] es
  /-- Spans and points are numbered one after another, so no number is used twice. -/
  ids : newSpans es = List.range' (t.spans + 1) (newSpans es).length
  /-- The events are numbered one after another. -/
  seqs : es.map Event.seq = List.range' (t.seq + 1) es.length
  /-- There is an event for each call whose scope is recorded, and no other. -/
  marks : es.map Event.mark = (marks calls).filter fun m => t.level.records m.scope
  /-- The events can be shown. -/
  shown : ∀ f, (Event.renderAll? f es).isSome

theorem Balanced.exists_wellNested {calls : List Call} {ms : List Mark} (hb : Balanced [] calls ms)
    {t : Tracer} {before : Array Event} (hstream : t.stream = some before) (hring : t.ring = none)
    (ambient : Nat) :
    ∃ es, (t.recordAll ambient calls).stream = some (before ++ es.toArray) ∧
      WellNested t ambient calls es := by
  have hs : t.Streams := ⟨by rw [hstream]; rfl, hring⟩
  have hlive : Session.Live { tracer := t } [] := List.forall_mem_nil _
  obtain ⟨es, hleaves⟩ := hb.leaves ambient (s := { tracer := t }) hs hlive
  have h := hleaves.recorded
  refine ⟨es, ?_, ?_, h.ids, h.seqs, ?_, fun f => renderAll?_isSome f fun e he => ?_⟩
  · rw [Tracer.recordAll, hleaves.tracer, Tracer.after, hstream]
    rfl
  · simpa using h.nested rfl .done
  · rw [hb.marks_eq]
    exact h.marks
  · have hmark : e.mark ∈ es.map Event.mark := List.mem_map_of_mem he
    rw [h.marks] at hmark
    exact hb.depth_ne_zero e.mark (List.mem_of_mem_filter hmark)

/-- **Traces are well nested.**  What a tracer with a stream writes of a compilation, and of a job,
is well nested inside the span around it, whatever its level, and wherever a fault stops the
work. -/
theorem trace_nested {t : Tracer} {before : Array Event} (hstream : t.stream = some before)
    (hring : t.ring = none) (ambient : Nat) :
    (∀ p o, ∃ es,
      (t.recordAll ambient (compile p o).activities).stream = some (before ++ es.toArray) ∧
        WellNested t ambient (compile p o).activities es) ∧
    ∀ (r : Job.Request) (tree : FileTree), ∃ es,
      (t.recordAll ambient (tree.perform (Job.run r)).1.calls).stream
          = some (before ++ es.toArray) ∧
        WellNested t ambient (tree.perform (Job.run r)).1.calls es := by
  constructor
  · intro p o
    obtain ⟨ms, hb⟩ := balanced_compile [] List.not_mem_nil List.not_mem_nil p o
    rw [List.map_nil, map_within_nil] at hb
    exact hb.exists_wellNested hstream hring ambient
  · intro r tree
    obtain ⟨ms, hb⟩ := balanced_run r tree
    exact hb.exists_wellNested hstream hring ambient

/-- A function whose second statement reads a variable that is not there. -/
def halting : Program :=
  [.function { name := "main", body := [.nop, .load .r1 "missing", .nop] }]

/-- The trace of a compilation that stops in the second statement closes all spans. -/
theorem trace_nested_halting :
    (compile halting {}).fault ≠ none ∧
    ∃ es, ((Tracer.make .debug .stream 0).recordAll 0 (compile halting {}).activities).stream
        = some es.toArray ∧ Nested 0 [] es ∧
      (es.map fun e => e.kind.mark ++ e.name) =
        ["→ collect", "← collect", "→ generate", "→ func:main", "• stmt#1", "• stmt#2",
          "← func:main", "← generate"] := by
  obtain ⟨es, hes, h⟩ := (trace_nested (t := Tracer.make .debug .stream 0) rfl rfl 0).1 halting {}
  refine ⟨by decide, es, by simpa using hes, h.nested, ?_⟩
  have hmarks := congrArg (List.map fun m : Mark => m.kind.mark ++ m.name) h.marks
  rw [List.map_map] at hmarks
  exact hmarks.trans (by decide)

end StumpGen.Trace
