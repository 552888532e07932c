import StumpGen.Proofs.Reading

/-!
# How the check of a listing reads lines

A line of a listing is a remark, which is blank or a comment, it sets the origin, or it is a
line of code.

* `Audit.words_eq`: the words of a line stand between its commas and blanks, whichever runes
  of one or more bytes it holds.
* `Audit.step_of_isRemark`, `Audit.step_of_isOrigin`, `Audit.step_of_isCode`: what the check
  does with each kind of line.
* `Audit.step_eq_none_iff`: the lines that cannot be read are those of commas and blanks only.
-/

namespace StumpGen

namespace Text

/-! ### Commas and blanks -/

theorem runes_ofRunes_suffix {t : Text} {rs : List Rune} (h : rs <:+ runes t) :
    runes (ofRunes rs) = rs := by
  obtain ⟨ss, hss⟩ := h
  induction ss generalizing t with
  | nil =>
    rw [List.nil_append] at hss
    rw [hss, ofRunes_runes]
  | cons s ss ih =>
    cases t with
    | nil => cases hss
    | cons a t =>
      rw [runes_cons, List.cons_append] at hss
      exact ih (List.cons.inj hss).2

theorem runes_trim (t : Text) : runes t.trim = trimRunes (runes t) := by
  -- the blanks in front go first, and those at the end of what is left
  have hfront := runes_ofRunes_suffix (List.dropWhile_suffix Rune.isBlank (l := runes t))
  have hend : trimRunes (runes t) <+: runes (ofRunes ((runes t).dropWhile Rune.isBlank)) := by
    rw [hfront]
    exact List.rdropWhile_prefix _ _
  exact runes_ofRunes hend

theorem trim_eq_nil_iff {t : Text} : t.trim = [] ↔ t.isBlank = true := by
  have hr : trimRunes (runes t) = [] ↔ t.isBlank = true := by
    rw [isBlank, List.all_eq_true]
    simp only [trimRunes, List.reverse_eq_nil_iff, List.dropWhile_eq_nil_iff, List.mem_reverse]
    constructor
    · intro h r hr
      rw [← List.takeWhile_append_dropWhile (p := Rune.isBlank) (l := runes t),
        List.mem_append] at hr
      exact hr.elim List.mem_takeWhile_imp (h r)
    · intro h r hr
      exact h r ((List.dropWhile_suffix _).subset hr)
  rw [← hr, ← runes_trim]
  constructor
  · intro h
    rw [h]
    rfl
  · intro h
    rw [← ofRunes_runes t.trim, h]
    rfl

theorem runsBetween_eq_nil_iff {sep : Rune → Bool} {rs : List Rune} :
    runsBetween sep rs = [] ↔ ∀ r ∈ rs, sep r = true := by
  induction rs with
  | nil => simp [runsBetween]
  | cons r rs ih =>
    cases hr : sep r with
    | true => simp [runsBetween_cons_of_sep hr, ih, hr]
    | false =>
      have hne : runsBetween sep (r :: rs) ≠ [] := by
        rw [runsBetween.eq_def]
        simp only [hr, Bool.false_eq_true, ↓reduceIte]
        split
        · split <;> simp
        · simp
      simp [hne, hr]

theorem runsBetween_append_of_sep {sep : Rune → Bool} (rs : List Rune) {ss : List Rune}
    (h : ∀ s ∈ ss, sep s = true) : runsBetween sep (rs ++ ss) = runsBetween sep rs := by
  induction rs with
  | nil => exact runsBetween_eq_nil_iff.2 h
  | cons r rs ih =>
    cases hr : sep r with
    | true => rw [List.cons_append, runsBetween_cons_of_sep hr, ih, runsBetween_cons_of_sep hr]
    | false =>
      cases rs with
      | nil =>
        have hs : ∀ s ∈ ss.head?, sep s = true := fun s hs => h s (List.mem_of_mem_head? hs)
        rw [List.singleton_append, ← List.singleton_append,
          runsBetween_append (by simp) (by simpa using hr) hs, runsBetween_eq_nil_iff.2 h]
        simp [runsBetween, hr]
      | cons s rs =>
        rw [List.cons_append, List.cons_append, runsBetween_cons_cons hr,
          runsBetween_cons_cons hr, ← List.cons_append, ih]

theorem runsBetween_trimRunes {sep : Rune → Bool} (h : ∀ r, r.isBlank = true → sep r = true)
    (rs : List Rune) : runsBetween sep (trimRunes rs) = runsBetween sep rs := by
  have hfront : ∀ rs, runsBetween sep (rs.dropWhile Rune.isBlank) = runsBetween sep rs := by
    intro rs
    induction rs with
    | nil => rfl
    | cons r rs ih =>
      rw [List.dropWhile_cons]
      split
      · rename_i hr
        rw [ih, runsBetween_cons_of_sep (h r hr)]
      · rfl
  have hend : ∀ rs, runsBetween sep (rs.rdropWhile Rune.isBlank) = runsBetween sep rs := by
    intro rs
    conv_rhs => rw [← List.rdropWhile_append_rtakeWhile (p := Rune.isBlank) (l := rs)]
    rw [runsBetween_append_of_sep _ fun s hs => h s (List.mem_rtakeWhile_imp hs)]
  exact (hend _).trans (hfront rs)

/-- The byte with a blank in the place of a comma. -/
def commaToBlank (b : UInt8) : UInt8 := if b = 44 then 32 else b

theorem commaToBlank_of_ne {b : UInt8} (h : b ≠ 44) : commaToBlank b = b := if_neg h

theorem lt_commaToBlank {b : UInt8} : commaToBlank b < 128 ↔ b < 128 := by
  by_cases h : b = 44
  · subst h
    decide
  · rw [commaToBlank_of_ne h]

/-- A byte is kept, or neither it nor what takes its place continues a sequence. -/
theorem commaToBlank_cases (b : UInt8) :
    commaToBlank b = b ∨ isContinuation b = false ∧ isContinuation (commaToBlank b) = false := by
  by_cases h : b = 44
  · subst h
    exact .inr ⟨by decide, by decide⟩
  · exact .inl (commaToBlank_of_ne h)

/-- **Longer sequences hold no comma**, so that they are read as they were. -/
theorem firstRune_commaToBlank {a : UInt8} (h : ¬ a < 128) (t : Text) :
    firstRune a (t.map commaToBlank) = firstRune a t := by
  have hpair : ∀ b, pair? a (commaToBlank b) = pair? a b := by
    intro b
    obtain hb | ⟨hb, hb'⟩ := commaToBlank_cases b
    · rw [hb]
    · simp [pair?, hb, hb']
  have htriple : ∀ b c, triple? a (commaToBlank b) (commaToBlank c) = triple? a b c := by
    intro b c
    obtain hb | ⟨hb, hb'⟩ := commaToBlank_cases b
    · obtain hc | ⟨hc, hc'⟩ := commaToBlank_cases c
      · rw [hb, hc]
      · simp [triple?, hc, hc']
    · simp [triple?, hb, hb']
  have hquad : ∀ b c d, quad? a (commaToBlank b) (commaToBlank c) (commaToBlank d) =
      quad? a b c d := by
    intro b c d
    obtain hb | ⟨hb, hb'⟩ := commaToBlank_cases b
    · obtain hc | ⟨hc, hc'⟩ := commaToBlank_cases c
      · obtain hd | ⟨hd, hd'⟩ := commaToBlank_cases d
        · rw [hb, hc, hd]
        · simp [quad?, hd, hd']
      · simp [quad?, hc, hc']
    · simp [quad?, hb, hb']
  rw [firstRune_eq_pick h, firstRune_eq_pick h]
  simp only [List.getElem?_map, Option.bind_map, Function.comp_def, hpair, htriple, hquad]

/-- Whether a rune stands between the words of a line of code. -/
def isSeparator (r : Rune) : Bool := r.isBlank || r == .scalar ','

/-- The rune with a blank in the place of a comma. -/
def blanked (r : Rune) : Rune := if r = .scalar ',' then .scalar ' ' else r

theorem isBlank_blanked (r : Rune) : (blanked r).isBlank = isSeparator r := by
  by_cases h : r = .scalar ','
  · subst h
    decide
  · simp [blanked, isSeparator, h]

theorem blanked_of_isSeparator {r : Rune} (h : isSeparator r = false) : blanked r = r := by
  simp only [isSeparator, Bool.or_eq_false_iff, beq_eq_false_iff_ne] at h
  exact if_neg h.2

/-- A rune whose bytes start with another byte is no comma. -/
theorem blanked_of_bytes {r : Rune} {b : UInt8} {t : Text} (hr : r.bytes = b :: t)
    (hb : b ≠ 44) : blanked r = r := by
  apply if_neg
  rintro rfl
  exact hb (List.cons.inj hr).1.symm

theorem asciiRune_commaToBlank {b : UInt8} (h : b < 128) :
    asciiRune (commaToBlank b) = blanked (asciiRune b) := by
  by_cases hb : b = 44
  · subst hb
    decide
  · have hbytes : (asciiRune b).bytes = [b] := ofChar_ofNat_ascii h
    rw [commaToBlank_of_ne hb, blanked_of_bytes hbytes hb]

theorem runes_map_commaToBlank (t : Text) :
    runes (t.map commaToBlank) = (runes t).map blanked := by
  -- the runes behind the first one are those of a shorter text
  induction hn : t.length using Nat.strongRecOn generalizing t with
  | ind n ih =>
    cases t with
    | nil => rfl
    | cons a t =>
      have hlt : ∀ k, (t.drop k).length < n := by
        intro k
        rw [← hn, List.length_drop, List.length_cons]
        omega
      by_cases ha : a < 128
      · have hrest := ih _ (hlt 0) _ rfl
        rw [List.drop_zero] at hrest
        rw [List.map_cons, runes_ascii_cons (lt_commaToBlank.2 ha), runes_ascii_cons ha,
          List.map_cons, asciiRune_commaToBlank ha, hrest]
      · have hfix : commaToBlank a = a := commaToBlank_of_ne fun h => ha (by rw [h]; decide)
        have hfirst := blanked_of_bytes (bytes_firstRune a t) fun h => ha (by rw [h]; decide)
        rw [List.map_cons, hfix, runes_cons, firstRune_commaToBlank ha, runes_cons, List.map_cons,
          hfirst, ← List.map_drop, ih _ (hlt _) _ rfl]

theorem runsBetween_map_blanked (rs : List Rune) :
    runsBetween Rune.isBlank (rs.map blanked) = runsBetween isSeparator rs := by
  induction rs with
  | nil => rfl
  | cons r rs ih =>
    cases hr : isSeparator r with
    | true =>
      have hb : (blanked r).isBlank = true := by rw [isBlank_blanked, hr]
      rw [List.map_cons, runsBetween_cons_of_sep hb, ih, runsBetween_cons_of_sep hr]
    | false =>
      have hb : r.isBlank = false := by rw [← blanked_of_isSeparator hr, isBlank_blanked, hr]
      rw [List.map_cons, blanked_of_isSeparator hr]
      cases rs with
      | nil => simp [runsBetween, hb, hr]
      | cons s ss =>
        rw [List.map_cons] at ih ⊢
        rw [runsBetween_cons_cons hb, runsBetween_cons_cons hr, ih, isBlank_blanked]

theorem dropPrefix?_eq_some {t p o : Text} (h : t.dropPrefix? p = some o) : p ++ o = t := by
  fun_induction dropPrefix? t p with
  | case1 t => rw [Option.some.inj h, List.nil_append]
  | case2 => cases h
  | case3 t b p ih => rw [List.cons_append, ih h]
  | case4 => cases h

end Text

namespace Audit

/-- **The words of a line** stand between its commas and blanks. -/
theorem words_eq (t : Text) :
    words t = (Text.runsBetween Text.isSeparator t.runes).map Text.ofRunes := by
  have h : words t = Text.words (t.map Text.commaToBlank) := rfl
  rw [h, Text.words, Text.runes_map_commaToBlank, Text.runsBetween_map_blanked]

theorem words_trim (t : Text) : words t.trim = words t := by
  have h : ∀ r : Rune, r.isBlank = true → Text.isSeparator r = true := by
    intro r hr
    simp [Text.isSeparator, hr]
  rw [words_eq, Text.runes_trim, Text.runsBetween_trimRunes h, words_eq]

theorem words_eq_nil_iff {t : Text} :
    words t = [] ↔ ∀ r ∈ t.runes, r.isBlank = true ∨ r = .scalar ',' := by
  simp [words_eq, Text.runsBetween_eq_nil_iff, Text.isSeparator]

/-! ### Kinds of lines -/

/-- A line without code: it is blank or a comment. -/
def IsRemark (l : Text) : Prop := l.isBlank = true ∨ l.trim.head? = some 59

/-- A line that sets the origin. -/
def IsOrigin (l : Text) : Prop := originMark <+: l.trim

/-- A line of code. -/
def IsCode (l : Text) : Prop := ¬ IsRemark l ∧ ¬ IsOrigin l

/-- A line of commas and blanks only, with at least one comma. -/
def IsVoid (l : Text) : Prop :=
  (∀ r ∈ l.runes, r.isBlank = true ∨ r = .scalar ',') ∧ .scalar ',' ∈ l.runes

instance (l : Text) : Decidable (IsRemark l) := inferInstanceAs (Decidable (_ ∨ _))

instance (l : Text) : Decidable (IsOrigin l) :=
  decidable_of_iff (originMark.isPrefixOf l.trim = true) List.isPrefixOf_iff_prefix

instance (l : Text) : Decidable (IsCode l) := inferInstanceAs (Decidable (_ ∧ _))

instance (l : Text) : Decidable (IsVoid l) :=
  decidable_of_iff ((l.runes.all Text.isSeparator && l.runes.contains (.scalar ',')) = true)
    (by simp [IsVoid, Text.isSeparator])

theorem not_isRemark_of_isOrigin {l : Text} (h : IsOrigin l) : ¬ IsRemark l := by
  obtain ⟨o, ho⟩ := h
  rintro (hb | hc)
  · rw [← Text.trim_eq_nil_iff, ← ho] at hb
    cases hb
  · rw [← ho] at hc
    cases hc

theorem step_of_isRemark {l : Text} (h : IsRemark l) (a : Audit) (n : Nat) :
    a.step n l = some a := by
  rw [IsRemark, ← Text.trim_eq_nil_iff] at h
  unfold step
  rw [if_pos h]

theorem step_of_isOrigin {l : Text} (h : IsOrigin l) (a : Audit) (n : Nat) :
    ∃ o, a.step n l = some (a.setOrigin n o) := by
  have hr := not_isRemark_of_isOrigin h
  rw [IsRemark, ← Text.trim_eq_nil_iff] at hr
  obtain ⟨o, ho⟩ := h
  rw [← ho] at hr
  refine ⟨Text.trim o, ?_⟩
  unfold step
  simp only [← ho, if_neg hr, Text.dropPrefix?_append]

theorem step_of_isCode {l : Text} (h : IsCode l) (a : Audit) (n : Nat) :
    a.step n l = a.code n (words l) := by
  obtain ⟨hr, ho⟩ := h
  rw [IsRemark, ← Text.trim_eq_nil_iff] at hr
  have hd : l.trim.dropPrefix? originMark = none := by
    rw [Option.eq_none_iff_forall_ne_some]
    exact fun o he => ho ⟨o, Text.dropPrefix?_eq_some he⟩
  unfold step
  simp only [if_neg hr, hd, words_trim]

theorem head?_trim_of_words_eq_nil {l : Text} (h : words l = []) {b : UInt8}
    (hb : l.trim.head? = some b) (hascii : b < 128) :
    (Text.asciiRune b).isBlank = true ∨ Text.asciiRune b = .scalar ',' := by
  obtain ⟨t, ht⟩ := List.head?_eq_some_iff.1 hb
  rw [← words_trim, words_eq_nil_iff, ht, Text.runes_ascii_cons hascii] at h
  exact h _ (by simp)

theorem isVoid_iff {l : Text} : IsVoid l ↔ IsCode l ∧ words l = [] := by
  constructor
  · rintro ⟨hall, hcomma⟩
    have hw := words_eq_nil_iff.2 hall
    refine ⟨⟨?_, ?_⟩, hw⟩
    · rintro (hb | hc)
      · cases List.all_eq_true.1 hb _ hcomma
      · exact absurd (head?_trim_of_words_eq_nil hw hc (by decide)) (by decide)
    · rintro ⟨o, ho⟩
      have hc : l.trim.head? = some 111 := by
        rw [← ho]
        rfl
      exact absurd (head?_trim_of_words_eq_nil hw hc (by decide)) (by decide)
  · rintro ⟨⟨hr, -⟩, hw⟩
    have hall := words_eq_nil_iff.1 hw
    refine ⟨hall, ?_⟩
    -- a rune that is not blank is the comma
    have hb : ¬ ∀ r ∈ l.runes, r.isBlank = true := fun h => hr (.inl (List.all_eq_true.2 h))
    push Not at hb
    obtain ⟨r, hr, hn⟩ := hb
    rwa [(hall r hr).resolve_left hn] at hr

theorem code_eq_none_iff {a : Audit} {n : Nat} {ws : List Text} :
    a.code n ws = none ↔ ws = [] := by
  fun_cases code a n ws <;> simp_all

/-- **A line cannot be read** if it has commas and no words, and only then. -/
theorem step_eq_none_iff {a : Audit} {n : Nat} {l : Text} : a.step n l = none ↔ IsVoid l := by
  rw [isVoid_iff]
  by_cases hr : IsRemark l
  · simp [step_of_isRemark hr, IsCode, hr]
  · by_cases ho : IsOrigin l
    · obtain ⟨o, hs⟩ := step_of_isOrigin ho a n
      simp [hs, IsCode, ho]
    · rw [step_of_isCode ⟨hr, ho⟩, code_eq_none_iff]
      simp [IsCode, hr, ho]

/-- **A listing cannot be read** if a line of it cannot. -/
theorem steps_eq_none_iff {a : Audit} {n : Nat} {ls : List Text} :
    a.steps n ls = none ↔ ∃ l ∈ ls, IsVoid l := by
  induction ls generalizing a n with
  | nil => simp [steps]
  | cons l ls ih =>
    simp only [steps, List.mem_cons, exists_eq_or_imp]
    have hl := step_eq_none_iff (a := a) (n := n) (l := l)
    cases hs : a.step n l with
    | none => simp [← hl, hs]
    | some b => simp [← hl, hs, ih]

end Audit

end StumpGen
