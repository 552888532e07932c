import StumpGen.Toml.Table
import StumpGen.Proofs.PlainText

/-!
# Strings of TOML that are read back

A string is written byte by byte between quotes and read character by character, in two passes:
one looks for the closing quote, the other resolves the escapes.  `Toml.Escape` lists the forms in
which one character may stand between quotes, and each pass is proved to cope with each form,
whatever follows.  So both directions meet in the characters of a text (`Text.chars`), which are all
of it exactly if it is well formed.

* `Toml.characters_bytes`: nothing is lost when plain characters are read from their bytes.
* `Toml.string_quotedChars`: a string between quotes is read back.
* `Toml.items_listChars`: so are strings in brackets.
-/

namespace StumpGen

/-! ### Characters -/

/-- The characters of a text. -/
def Text.chars (t : Text) : List Char := t.runes.map Rune.char

/-- A text that TOML can hold: it is well formed, and has no mark of a character that was lost. -/
def Text.IsReadable (t : Text) : Prop := t.isUtf8 = true ∧ Rune.scalar '\uFFFD' ∉ t.runes

instance : DecidablePred Text.IsReadable := fun t =>
  inferInstanceAs (Decidable (t.isUtf8 = true ∧ Rune.scalar '\uFFFD' ∉ t.runes))

namespace Toml

theorem bytes_append (cs ds : List Char) : bytes (cs ++ ds) = bytes cs ++ bytes ds :=
  List.flatMap_append

theorem bytes_cons (c : Char) (cs : List Char) : bytes (c :: cs) = Text.ofChar c ++ bytes cs := rfl

theorem runes_bytes (cs : List Char) : (bytes cs).runes = cs.map .scalar := by
  have h := Text.runes_flatMap_ofChar cs []
  rw [List.append_nil] at h
  rw [bytes, h]
  exact List.append_nil _

theorem bytes_chars {t : Text} (h : t.isUtf8 = true) : bytes t.chars = t := by
  have hr : ∀ r ∈ t.runes, Text.ofChar r.char = r.bytes := by
    intro r hr
    cases r with
    | scalar c => rfl
    | stray b => exact absurd (List.all_eq_true.1 h _ hr) (by simp)
  rw [bytes, Text.chars, List.flatMap_map]
  calc t.runes.flatMap (fun r => Text.ofChar r.char)
      = t.runes.flatMap Rune.bytes := List.flatMap_congr hr
    _ = t := Text.ofRunes_runes t

theorem notMem_chars {t : Text} (h : t.IsReadable) : '\uFFFD' ∉ t.chars := by
  intro hm
  obtain ⟨r, hr, hc⟩ := List.mem_map.1 hm
  cases r with
  | scalar c => exact h.2 (hc ▸ hr)
  | stray b => exact absurd (List.all_eq_true.1 h.1 _ hr) (by simp)

/-- A character that may stand anywhere in a text. -/
def IsPlain (c : Char) : Prop := isForbidden c = false ∧ c ≠ '\r'

instance : DecidablePred IsPlain := fun c =>
  inferInstanceAs (Decidable (isForbidden c = false ∧ c ≠ '\r'))

theorem isPlain_of_all {cs : List Char} (h : (cs.all fun c => decide (IsPlain c)) = true) :
    ∀ c ∈ cs, IsPlain c := by
  simpa only [List.all_eq_true, decide_eq_true_eq] using h

theorem characters_bytes {cs : List Char} (h : ∀ c ∈ cs, IsPlain c) :
    characters (bytes cs).runes = cs := by
  rw [runes_bytes]
  induction cs with
  | nil => rfl
  | cons c cs ih =>
    obtain ⟨hc, hcs⟩ := List.forall_mem_cons.1 h
    rw [List.map_cons, characters, if_neg, ih hcs]
    simp [hc.1, hc.2]

/-! ### Joined pieces -/

theorem bytes_intercalate (sep : List Char) (css : List (List Char)) :
    bytes (sep.intercalate css) = Text.join (bytes sep) (css.map bytes) := by
  induction css with
  | nil => rfl
  | cons cs css ih =>
    cases css with
    | nil => rw [List.intercalate_singleton]; rfl
    | cons ds css =>
      rw [List.intercalate_cons_cons, bytes_append, bytes_append, ih]
      rfl

theorem isPlain_intercalate {sep : List Char} (hsep : ∀ c ∈ sep, IsPlain c) {css : List (List Char)}
    (h : ∀ cs ∈ css, ∀ c ∈ cs, IsPlain c) : ∀ c ∈ sep.intercalate css, IsPlain c := by
  induction css with
  | nil => exact nofun
  | cons cs css ih =>
    obtain ⟨hcs, hcss⟩ := List.forall_mem_cons.1 h
    cases css with
    | nil => rwa [List.intercalate_singleton]
    | cons ds css =>
      rw [List.intercalate_cons_cons, List.forall_mem_append, List.forall_mem_append]
      exact ⟨⟨hcs, hsep⟩, ih hcss⟩

theorem length_le_intercalate (sep : List Char) {css : List (List Char)} (h : ∀ cs ∈ css, cs ≠ []) :
    css.length ≤ (sep.intercalate css).length := by
  induction css with
  | nil => exact Nat.le_refl 0
  | cons cs css ih =>
    obtain ⟨hcs, hcss⟩ := List.forall_mem_cons.1 h
    have hpos : 0 < cs.length := List.length_pos_of_ne_nil hcs
    cases css with
    | nil => rwa [List.intercalate_singleton]
    | cons ds css =>
      have := ih hcss
      rw [List.intercalate_cons_cons, List.length_append, List.length_append, List.length_cons]
      omega

/-! ### Strings -/

/-- A character that stands for itself between quotes. -/
def IsOrdinary (c : Char) : Prop := c ≠ '"' ∧ c ≠ '\\' ∧ isNewline c = false ∧ c ≠ unreadable

instance : DecidablePred IsOrdinary := fun c =>
  inferInstanceAs (Decidable (c ≠ '"' ∧ c ≠ '\\' ∧ isNewline c = false ∧ c ≠ unreadable))

theorem isNewline_eq_false {c : Char} (hn : c ≠ '\n') (hr : c ≠ '\r') : isNewline c = false := by
  simp [isNewline, hn, hr]

theorem isOrdinary_of_isHexDigit {c : Char} (h : isHexDigit c = true) : IsOrdinary c := by
  have hne {d : Char} (hd : isHexDigit d = false) : c ≠ d := by
    rintro rfl
    cases h.symm.trans hd
  exact ⟨hne (by decide), hne (by decide), isNewline_eq_false (hne (by decide)) (hne (by decide)),
    hne (by decide)⟩

/-- The forms in which a character can stand between quotes. -/
inductive Escape (c : Char) : List Char → Prop
  | letter {x : Char} (hx : x ≠ 'u' ∧ x ≠ 'U' ∧ isSpace x = false) (h : escaped? x = some c) :
    Escape c ['\\', x]
  | code {w x y z : Char} (hd : [w, x, y, z].all isHexDigit = true)
      (h : codeChar [w, x, y, z] = .ok c) : Escape c ['\\', 'u', w, x, y, z]
  | plain (h : IsOrdinary c) : Escape c [c]

/-- Whether the characters are a form of `c`. -/
def isEscape (c : Char) : List Char → Bool
  | [d] => decide (d = c ∧ IsOrdinary d)
  | [b, x] => decide (b = '\\' ∧ (x ≠ 'u' ∧ x ≠ 'U' ∧ isSpace x = false) ∧ escaped? x = some c)
  | [b, u, w, x, y, z] =>
    decide (b = '\\' ∧ u = 'u' ∧ [w, x, y, z].all isHexDigit = true ∧
      codeChar [w, x, y, z] = .ok c)
  | _ => false

namespace Escape

variable {c : Char} {es rest s r : List Char}

theorem of_isEscape (h : isEscape c es = true) : Escape c es := by
  unfold isEscape at h
  split at h
  · obtain ⟨rfl, hd⟩ := of_decide_eq_true h
    exact .plain hd
  · obtain ⟨rfl, hx, hc⟩ := of_decide_eq_true h
    exact .letter hx hc
  · obtain ⟨rfl, rfl, hd, hc⟩ := of_decide_eq_true h
    exact .code hd hc
  · cases h

theorem basicString_ordinary (h : IsOrdinary c) (hrest : basicString rest = .ok (s, r)) :
    basicString (c :: rest) = .ok (c :: s, r) := by
  obtain ⟨hq, hb, hn, hu⟩ := h
  simp [basicString, hq, hb, hn, hu, hrest, bind, Except.bind, pure, Except.pure]

theorem basicString_append (h : Escape c es) (hrest : basicString rest = .ok (s, r)) :
    basicString (es ++ rest) = .ok (es ++ s, r) := by
  cases h with
  | @letter x hx h =>
    have hbad : badEscape? x rest = none := by simp [badEscape?, hx, h]
    simp [basicString, hbad, hrest, bind, Except.bind, pure, Except.pure]
  | @code w x y z hd h =>
    simp only [List.all_cons, List.all_nil, Bool.and_true, Bool.and_eq_true] at hd
    obtain ⟨hw, hx, hy, hz⟩ := hd
    have hbad : badEscape? 'u' (w :: x :: y :: z :: rest) = none := by
      simp [badEscape?, missingDigit?, hw, hx, hy, hz]
    -- to this reader the digits are characters like others
    have hdigits := basicString_ordinary (isOrdinary_of_isHexDigit hw)
      (basicString_ordinary (isOrdinary_of_isHexDigit hx)
        (basicString_ordinary (isOrdinary_of_isHexDigit hy)
          (basicString_ordinary (isOrdinary_of_isHexDigit hz) hrest)))
    simp [basicString, hbad, hdigits, bind, Except.bind, pure, Except.pure]
  | plain h => exact basicString_ordinary h hrest

theorem unescape_append (h : Escape c es) (hrest : unescape false rest = .ok s) :
    unescape false (es ++ rest) = .ok (c :: s) := by
  cases h with
  | @letter x hx h =>
    have hc : escapedChar x = .ok c := by rw [escapedChar, h]
    simp [unescape, hx, hc, hrest, bind, Except.bind, pure, Except.pure]
  | @code w x y z hd h =>
    simp [unescape, h, hrest, bind, Except.bind, pure, Except.pure]
  | plain h => simp [unescape, h.2.1, hrest, bind, Except.bind, pure, Except.pure]

end Escape

/-- What is true of all ASCII characters can be checked for one after the other. -/
theorem forall_ascii {P : Char → Prop} (h : ∀ n : Fin 128, P (Char.ofNat n)) {c : Char}
    (hc : c.toNat < 128) : P c := by
  have := h ⟨c.toNat, hc⟩
  rwa [Char.ofNat_toNat] at this

/-- A character between basic quotes. -/
def escapeChar (c : Char) : List Char :=
  if c.toNat < 128 then (escapeByte (UInt8.ofNat c.toNat)).map fun b => Char.ofNat b.toNat else [c]

theorem escape_escapeChar (c : Char) : Escape c (escapeChar c) := by
  -- the ASCII characters are checked one by one, all others stand for themselves
  by_cases hc : c.toNat < 128
  · exact .of_isEscape
      (forall_ascii (P := fun c => isEscape c (escapeChar c) = true) (by decide +kernel) hc)
  · have hne {d : Char} (hd : d.toNat < 128) : c ≠ d := fun h => hc (h ▸ hd)
    rw [escapeChar, if_neg hc]
    exact .plain ⟨hne (by decide), hne (by decide),
      isNewline_eq_false (hne (by decide)) (hne (by decide)), hne (by decide)⟩

theorem escapeByte_of_le {b : UInt8} (h : 128 ≤ b.toNat) : escapeByte b = [b] := by
  have hne {d : UInt8} (hd : d.toNat < 128) : b ≠ d := by
    rintro rfl
    omega
  have hlt : ¬ b < 32 := fun hlt => by
    have := UInt8.lt_iff_toNat_lt.1 hlt
    simp only [UInt8.reduceToNat] at this
    omega
  rw [escapeByte, if_neg (hne (by decide)), if_neg (hne (by decide)), if_neg (hne (by decide)),
    if_neg (hne (by decide)), if_neg (hne (by decide)), if_neg (hne (by decide)),
    if_neg (hne (by decide)), if_neg (not_or.2 ⟨hlt, hne (by decide)⟩)]

theorem bytes_escapeChar (c : Char) :
    bytes (escapeChar c) = (Text.ofChar c).flatMap escapeByte := by
  by_cases hc : c.toNat < 128
  · exact forall_ascii (P := fun c => bytes (escapeChar c) = (Text.ofChar c).flatMap escapeByte)
      (by decide +kernel) hc
  · have hb : (Text.ofChar c).flatMap escapeByte = (Text.ofChar c).flatMap fun b => [b] :=
      List.flatMap_congr fun b hb => escapeByte_of_le (Text.le_of_mem_ofChar hc hb)
    rw [hb, List.flatMap_singleton', escapeChar, if_neg hc]
    exact List.append_nil _

theorem isPlain_of_mem_escapeChar {c : Char} (hc : c ≠ '\uFFFD') :
    ∀ x ∈ escapeChar c, IsPlain x := by
  by_cases ha : c.toNat < 128
  · exact isPlain_of_all (forall_ascii
      (P := fun c => ((escapeChar c).all fun x => decide (IsPlain x)) = true)
      (by decide +kernel) ha)
  · intro x hx
    rw [escapeChar, if_neg ha, List.mem_singleton] at hx
    subst hx
    refine ⟨?_, fun h => ha (h ▸ by decide)⟩
    have h32 : ¬ x.toNat < 32 := by omega
    have h127 : x.toNat ≠ 127 := by omega
    simp [isForbidden, h32, h127, hc]

/-- A string between basic quotes, as characters. -/
def quotedChars (cs : List Char) : List Char := '"' :: cs.flatMap escapeChar ++ ['"']

theorem bytes_quotedChars (cs : List Char) : bytes (quotedChars cs) = quoted (bytes cs) := by
  have hcs : bytes (cs.flatMap escapeChar) = (bytes cs).flatMap escapeByte := by
    induction cs with
    | nil => rfl
    | cons c cs ih =>
      rw [List.flatMap_cons, bytes_append, ih, bytes_escapeChar, bytes_cons, List.flatMap_append]
  rw [quotedChars, bytes_append, bytes_cons, hcs]
  rfl

theorem basicString_quoted (cs rest : List Char) :
    basicString (cs.flatMap escapeChar ++ '"' :: rest) = .ok (cs.flatMap escapeChar, rest) := by
  induction cs with
  | nil => simp [basicString]
  | cons c cs ih =>
    rw [List.flatMap_cons, List.append_assoc]
    exact (escape_escapeChar c).basicString_append ih

theorem unescape_quoted (cs : List Char) : unescape false (cs.flatMap escapeChar) = .ok cs := by
  induction cs with
  | nil => rfl
  | cons c cs ih => exact (escape_escapeChar c).unescape_append ih

theorem quotedChars_append (cs rest : List Char) :
    quotedChars cs ++ rest = '"' :: (cs.flatMap escapeChar ++ '"' :: rest) := by
  simp [quotedChars]

theorem shortString_quotedChars (cs rest : List Char) :
    shortString (quotedChars cs ++ rest) = .ok (bytes cs, rest) := by
  have h := basicString_quoted cs rest
  simp [quotedChars_append, shortString, h, unescaped, unescape_quoted, bind, Except.bind]

theorem Escape.head?_ne {c : Char} {es : List Char} (h : Escape c es) (rest : List Char) :
    ∃ x, (es ++ rest).head? = some x ∧ x ≠ '"' := by
  cases h with
  | letter hx h => exact ⟨'\\', rfl, by decide⟩
  | code hd h => exact ⟨'\\', rfl, by decide⟩
  | plain h => exact ⟨c, rfl, h.1⟩

/-- **A string between quotes is read back.**  What follows must not make it look like the start of
a string of several lines. -/
theorem string_quotedChars (cs : List Char) {rest : List Char} (h : rest.head? ≠ some '"') :
    string (quotedChars cs ++ rest) = .ok (bytes cs, rest) := by
  rw [← shortString_quotedChars, string]
  -- three quotes in a row open a string of several lines: two stand side by side only if the string
  -- is empty, and then a third would have to follow
  · intro ds he
    cases cs with
    | nil =>
      simp only [quotedChars, List.flatMap_nil, List.cons_append, List.nil_append, List.cons.injEq,
        true_and] at he
      exact h (by rw [he]; rfl)
    | cons c cs =>
      obtain ⟨x, hx, hne⟩ := (escape_escapeChar c).head?_ne (cs.flatMap escapeChar ++ '"' :: rest)
      simp only [quotedChars, List.flatMap_cons, List.cons_append, List.append_assoc,
        List.nil_append, List.cons.injEq, true_and] at he
      rw [he] at hx
      exact hne (Option.some.inj hx).symm
  · intro ds he
    simp [quotedChars] at he

theorem scalar_quotedChars (cs : List Char) {rest : List Char} (h : rest.head? ≠ some '"') :
    scalar (quotedChars cs ++ rest) = .ok (.string (bytes cs), rest) := by
  have hs := string_quotedChars cs h
  rw [quotedChars_append] at hs ⊢
  simp [scalar, hs, bind, Except.bind, pure, Except.pure]

theorem value_quotedChars (fuel : Nat) (cs : List Char) {rest : List Char}
    (h : rest.head? ≠ some '"') :
    value (fuel + 1) (quotedChars cs ++ rest) = (.string (bytes cs), some rest) := by
  have hs := scalar_quotedChars cs h
  rw [quotedChars_append] at hs ⊢
  simp [value, skipBlanks, isBlank, hs]

/-- Strings in brackets, as characters behind the opening one. -/
def listChars (css : List (List Char)) : List Char :=
  [',', ' '].intercalate (css.map quotedChars) ++ [']']

theorem listChars_singleton (cs : List Char) : listChars [cs] = quotedChars cs ++ [']'] := by
  rw [listChars, List.map_singleton, List.intercalate_singleton]

theorem listChars_cons_cons (cs ds : List Char) (css : List (List Char)) :
    listChars (cs :: ds :: css) = quotedChars cs ++ ',' :: ' ' :: listChars (ds :: css) := by
  simp [listChars]

theorem bytes_listChars (css : List (List Char)) :
    bytes (listChars css) = Text.join ", " (css.map fun cs => quoted (bytes cs)) ++ "]" := by
  have hmap : (css.map quotedChars).map bytes = css.map fun cs => quoted (bytes cs) := by
    rw [List.map_map]
    exact List.map_congr_left fun cs _ => bytes_quotedChars cs
  rw [listChars, bytes_append, bytes_intercalate, hmap]
  rfl

theorem items_blank (fuel : Nat) (cs : List Char) :
    items (fuel + 1) (' ' :: cs) = items (fuel + 1) cs := by
  simp [items, skipSpace, isSpace, isBlank]

theorem items_quotedChars {fuel : Nat} {cs rest : List Char} {c : Char} (hc : c = ']' ∨ c = ',') :
    items (fuel + 2) (quotedChars cs ++ c :: rest) =
      if c = ']' then ([.string (bytes cs)], some rest)
      else (.string (bytes cs) :: (items (fuel + 1) rest).1, (items (fuel + 1) rest).2) := by
  have hq : (c :: rest).head? ≠ some '"' := by rcases hc with rfl | rfl <;> simp
  have hv := value_quotedChars fuel cs hq
  rw [items]
  rw [quotedChars_append] at hv ⊢
  simp only [skipSpace, isSpace, isBlank, isNewline]
  rcases hc with rfl | rfl <;> simp [hv, skipSpace, isSpace, isBlank, isNewline]

/-- **Strings in brackets are read back.** -/
theorem items_listChars {css : List (List Char)} {fuel : Nat} (hf : css.length < fuel)
    (rest : List Char) :
    items (fuel + 1) (listChars css ++ rest) =
      (css.map fun cs => .string (bytes cs), some rest) := by
  induction css generalizing fuel with
  | nil => simp [listChars, items, skipSpace, isSpace, isBlank, isNewline]
  | cons cs css ih =>
    -- one more step for each string, and one for the closing bracket
    obtain ⟨fuel, rfl⟩ := Nat.exists_eq_succ_of_ne_zero (Nat.ne_of_gt (Nat.zero_lt_of_lt hf))
    cases css with
    | nil =>
      rw [listChars_singleton, List.append_assoc, List.singleton_append,
        items_quotedChars (.inl rfl), if_pos rfl]
      rfl
    | cons ds css =>
      rw [listChars_cons_cons, List.append_assoc, List.cons_append, items_quotedChars (.inr rfl),
        if_neg (by decide), List.cons_append, items_blank, ih (Nat.lt_of_succ_lt_succ hf)]
      rfl

theorem length_listChars (css : List (List Char)) : css.length < (listChars css).length := by
  have hne : ∀ cs ∈ css.map quotedChars, cs ≠ [] :=
    List.forall_mem_map.2 fun cs _ => by simp [quotedChars]
  have h := length_le_intercalate [',', ' '] hne
  rw [List.length_map] at h
  rw [listChars, List.length_append, List.length_singleton]
  exact Nat.lt_succ_of_le h

theorem value_blank (fuel : Nat) (cs : List Char) :
    value (fuel + 1) (' ' :: cs) = value (fuel + 1) cs := by
  simp [value, skipBlanks, isBlank]

theorem value_listChars {css : List (List Char)} {fuel : Nat} (hf : css.length < fuel)
    (rest : List Char) :
    value (fuel + 2) ('[' :: listChars css ++ rest) =
      (.array (css.map fun cs => .string (bytes cs)), some rest) := by
  have hi := items_listChars hf rest
  simp [value, skipBlanks, isBlank, hi]

theorem isPlain_quotedChars {cs : List Char} (h : '\uFFFD' ∉ cs) :
    ∀ c ∈ quotedChars cs, IsPlain c := by
  intro c hc
  simp only [quotedChars, List.cons_append, List.mem_cons, List.mem_append, List.mem_flatMap,
    List.not_mem_nil, or_false] at hc
  rcases hc with rfl | ⟨x, hx, hc⟩ | rfl
  · decide
  · exact isPlain_of_mem_escapeChar (fun hx' => h (hx' ▸ hx)) c hc
  · decide

theorem isPlain_listChars {css : List (List Char)} (h : ∀ cs ∈ css, '\uFFFD' ∉ cs) :
    ∀ c ∈ listChars css, IsPlain c := by
  rw [listChars, List.forall_mem_append]
  exact ⟨isPlain_intercalate (isPlain_of_all (by decide)) (List.forall_mem_map.2 fun cs hcs =>
    isPlain_quotedChars (h cs hcs)), isPlain_of_all (by decide)⟩

end Toml

end StumpGen
