import StumpGen.Document.Toml
import StumpGen.Proofs.TomlStrings

/-!
# Lines of TOML that are read back

The lines of a written document are of two kinds (`Toml.Entry`): one opens a further table of a
list, the other gives a string or a list of strings to a field (`Toml.Written`).  Each is read back
as what it stands for (`Toml.Entry.Reads`), up to the place that a line notes for messages.

* `Toml.key_pathChars`: the names of a key are read back.
* `Toml.Written.value_chars`: a value is read back.
* `Toml.Entry.readLines_chars`: a line is read back, and then what follows it.
* `Toml.parse_entries`: the text of lines is read as these lines.
-/

namespace StumpGen

namespace Toml

/-! ### Keys -/

/-- A name that can be a part of a key without quotes. -/
def IsName (s : String) : Prop := s.toList ≠ [] ∧ ∀ c ∈ s.toList, isBareChar c = true ∧ IsPlain c

-- the characters of the name are gone through, not all characters
instance : DecidablePred IsName := fun s => @instDecidableAnd _ _ _ (List.decidableBAll _ s.toList)

/-- The first character of a name is no sign with a meaning of its own. -/
theorem IsName.head {s : String} (h : IsName s) :
    ∃ c cs, s.toList = c :: cs ∧ ∀ d, isBareChar d = false → c ≠ d := by
  obtain ⟨hne, hbare⟩ := h
  obtain ⟨c, cs, hs⟩ := List.exists_cons_of_ne_nil hne
  refine ⟨c, cs, hs, fun d hd hcd => ?_⟩
  have hc := (hbare c (by simp [hs])).1
  rw [hcd, hd] at hc
  cases hc

theorem keyPart_name {s : String} (h : IsName s) {d : Char} (hd : isBareChar d = false)
    (rest : List Char) : keyPart (s.toList ++ d :: rest) = .ok (s, d :: rest) := by
  obtain ⟨c, cs, hs, hc⟩ := h.head
  have htake : (s.toList ++ d :: rest).takeWhile isBareChar = s.toList := by
    rw [List.takeWhile_append_of_pos fun x hx => (h.2 x hx).1]
    simp [hd]
  have hquote : ((s.toList ++ d :: rest).head?.any fun c => c == '"' || c == '\'') = false := by
    simp [hs, hc '"' (by decide), hc '\'' (by decide)]
  have hbytes : bytes (c :: cs) = (s : Text) := by
    rw [← hs]
    rfl
  rw [keyPart, hquote, htake]
  simp only [hs, hbytes, Bool.false_eq_true, ↓reduceIte, List.drop_left]

section Key

variable {stop : Char} {fuel : Nat} {s : String} {rest : List Char}

theorem skipBlanks_name (h : IsName s) (rest : List Char) :
    skipBlanks (s.toList ++ rest) = s.toList ++ rest := by
  obtain ⟨c, cs, hs, hc⟩ := h.head
  simp [skipBlanks, hs, isBlank, hc ' ' (by decide), hc '\t' (by decide)]

theorem key_name (h : IsName s) (hstop : isBareChar stop = false) {d : Char}
    (hd : isBareChar d = false) :
    key stop (fuel + 1) (s.toList ++ d :: rest) =
      match skipBlanks (d :: rest) with
      | [] => .error .atEnd
      | c :: rest =>
        if c = stop then .ok ([(s : Text)], rest)
        else if c = '.' then do
          let (parts, rest) ← key stop fuel rest
          pure ((s : Text) :: parts, rest)
        else .error (.here rest.length) := by
  have hfirst : ((s.toList ++ d :: rest).head?.all fun c => c == stop || c == '.') = false := by
    obtain ⟨c, cs, hs, hc⟩ := h.head
    simp [hs, hc stop hstop, hc '.' (by decide)]
  rw [key, skipBlanks_name h, hfirst, keyPart_name h hd]
  rfl

theorem key_last (h : IsName s) (hstop : isBareChar stop = false) (hblank : isBlank stop = false) :
    key stop (fuel + 1) (s.toList ++ stop :: rest) = .ok ([(s : Text)], rest) := by
  rw [key_name h hstop hstop]
  simp [skipBlanks, hblank]

end Key

/-- The names of a key with points between them. -/
def pathChars (path : List String) : List Char := ['.'].intercalate (path.map String.toList)

theorem pathChars_singleton (s : String) : pathChars [s] = s.toList := by
  rw [pathChars, List.map_singleton, List.intercalate_singleton]

theorem pathChars_cons_cons (s s' : String) (ss : List String) :
    pathChars (s :: s' :: ss) = s.toList ++ '.' :: pathChars (s' :: ss) := by
  simp [pathChars]

theorem key_pathChars {path : List String} (hne : path ≠ []) (h : ∀ s ∈ path, IsName s) {fuel : Nat}
    (hf : path.length ≤ fuel) (rest : List Char) :
    key ']' fuel (pathChars path ++ ']' :: rest) = .ok (path.map Text.ofString, rest) := by
  induction path generalizing fuel with
  | nil => exact absurd rfl hne
  | cons s ss ih =>
    obtain ⟨hs, hss⟩ := List.forall_mem_cons.1 h
    obtain ⟨fuel, rfl⟩ := Nat.exists_eq_succ_of_ne_zero
      (Nat.ne_of_gt (Nat.lt_of_lt_of_le (by simp) hf))
    cases ss with
    | nil =>
      rw [pathChars_singleton]
      exact key_last hs (by decide) (by decide)
    | cons s' ss =>
      have hrest := ih (by simp) hss (Nat.le_of_succ_le_succ hf)
      rw [pathChars_cons_cons, List.append_assoc, List.cons_append,
        key_name hs (by decide) (by decide)]
      simp [skipBlanks, isBlank, hrest, bind, Except.bind, pure, Except.pure]

theorem length_pathChars {path : List String} (h : ∀ s ∈ path, IsName s) :
    path.length ≤ (pathChars path).length := by
  have := length_le_intercalate ['.'] (List.forall_mem_map.2 fun s hs => (h s hs).1)
  rwa [List.length_map] at this

theorem isPlain_pathChars {path : List String} (h : ∀ s ∈ path, IsName s) :
    ∀ c ∈ pathChars path, IsPlain c :=
  isPlain_intercalate (isPlain_of_all (by decide))
    (List.forall_mem_map.2 fun s hs c hc => ((h s hs).2 c hc).2)

theorem bytes_pathChars (path : List String) :
    bytes (pathChars path) = Text.join "." (path.map Text.ofString) := by
  rw [pathChars, bytes_intercalate, List.map_map]
  rfl

/-! ### Values -/

/-- What a field holds that is written to a file. -/
inductive Written where
  /-- A string. -/
  | one (text : Text)
  /-- A list of strings. -/
  | many (texts : List Text)
  deriving DecidableEq, Repr

namespace Written

/-- All strings. -/
def texts : Written → List Text
  | .one t => [t]
  | .many ts => ts

/-- As it is written. -/
def text : Written → Text
  | .one t => quoted t
  | .many ts => "[" ++ Text.join ", " (ts.map quoted) ++ "]"

/-- The characters of what is written. -/
def chars : Written → List Char
  | .one t => quotedChars t.chars
  | .many ts => '[' :: listChars (ts.map Text.chars)

/-- As it is read. -/
def value : Written → Value
  | .one t => .string t
  | .many ts => .array (ts.map .string)

variable {w : Written} (h : ∀ t ∈ w.texts, t.IsReadable)

include h in
theorem bytes_chars : bytes w.chars = w.text := by
  cases w with
  | one t => rw [chars, bytes_quotedChars, Toml.bytes_chars (h t (by simp [texts])).1]; rfl
  | many ts =>
    have hts : (ts.map Text.chars).map (fun cs => quoted (bytes cs)) = ts.map quoted := by
      rw [List.map_map]
      exact List.map_congr_left fun t ht => congrArg quoted (Toml.bytes_chars (h t ht).1)
    rw [chars, bytes_cons, bytes_listChars, hts, text, List.append_assoc]
    rfl

include h in
theorem isPlain_chars : ∀ c ∈ w.chars, IsPlain c := by
  cases w with
  | one t => exact isPlain_quotedChars (notMem_chars (h t (by simp [texts])))
  | many ts =>
    refine List.forall_mem_cons.2 ⟨by decide, isPlain_listChars fun cs hcs => ?_⟩
    obtain ⟨t, ht, rfl⟩ := List.mem_map.1 hcs
    exact notMem_chars (h t ht)

include h in
/-- **What is written is read back.** -/
theorem value_chars {fuel : Nat} (hf : w.chars.length < fuel) {rest : List Char}
    (hrest : rest.head? ≠ some '"') :
    Toml.value fuel (' ' :: w.chars ++ rest) = (w.value, some rest) := by
  obtain ⟨fuel, rfl⟩ := Nat.exists_eq_succ_of_ne_zero (Nat.ne_of_gt (Nat.zero_lt_of_lt hf))
  rw [List.cons_append, value_blank]
  cases w with
  | one t =>
    rw [chars, value_quotedChars _ _ hrest, Toml.bytes_chars (h t (by simp [texts])).1]
    rfl
  | many ts =>
    have hlen := length_listChars (ts.map Text.chars)
    rw [chars, List.length_cons] at hf
    obtain ⟨fuel, rfl⟩ : ∃ k, fuel = k + 1 := ⟨fuel - 1, by omega⟩
    rw [chars, value_listChars (by omega), List.map_map]
    have hts : ts.map ((fun cs => Value.string (bytes cs)) ∘ Text.chars) = ts.map .string :=
      List.map_congr_left fun t ht => congrArg Value.string (Toml.bytes_chars (h t ht).1)
    rw [hts]
    rfl

end Written

/-! ### Lines -/

/-- A line of a written document. -/
inductive Entry where
  /-- Opens a table of a list, after a blank line if `gap` is set. -/
  | item (gap : Bool) (path : List String)
  /-- Gives a value to a field, `depth` tables deep. -/
  | field (depth : Nat) (key : String) (value : Written)
  deriving DecidableEq, Repr

namespace Entry

/-- The line as it is written. -/
def text : Entry → Text
  | .item gap path => (if gap then Text.newline else []) ++ Document.itemLine path
  | .field depth key value => Document.keyLine depth key value.text

/-- The characters of the line. -/
def chars : Entry → List Char
  | .item gap path =>
    (if gap then ['\n'] else []) ++ List.replicate (2 * (path.length - 1)) ' '
      ++ '[' :: '[' :: pathChars path ++ [']', ']', '\n']
  | .field depth key value =>
    List.replicate (2 * depth) ' ' ++ key.toList ++ [' ', '=', ' '] ++ value.chars ++ ['\n']

/-- What a line needs to be read back. -/
def IsReadable : Entry → Prop
  | .item _ path => path ≠ [] ∧ ∀ s ∈ path, IsName s
  | .field _ key value => IsName key ∧ ∀ t ∈ value.texts, t.IsReadable

/-- What a line is read as, wherever it stands. -/
inductive Reads : Entry → Line → Prop
  | item {gap : Bool} {path : List String} {n : Nat} :
    Reads (.item gap path) (.item (path.map Text.ofString) n)
  | field {depth : Nat} {key : String} {value : Written} {n : Nat} :
    Reads (.field depth key value) (.define [(key : Text)] n value.value)

theorem bytes_replicate (n : Nat) : bytes (List.replicate n ' ') = Text.blanks n := by
  induction n with
  | zero => rfl
  | succ n ih => rw [List.replicate_succ, bytes_cons, ih]; rfl

theorem bytes_chars {e : Entry} (h : e.IsReadable) : bytes e.chars = e.text := by
  cases e with
  | item gap path =>
    have hgap : bytes (if gap then ['\n'] else []) = if gap then Text.newline else [] := by
      cases gap <;> rfl
    have hopen : bytes ('[' :: '[' :: pathChars path) = "[[" ++ bytes (pathChars path) := rfl
    have hclose : bytes [']', ']', '\n'] = "]]" ++ Text.newline := rfl
    simp only [chars, text, Document.itemLine, bytes_append, hgap, bytes_replicate, hopen, hclose,
      bytes_pathChars, List.append_assoc]
  | field depth key value =>
    have hkey : bytes key.toList = (key : Text) := rfl
    have hsep : bytes [' ', '=', ' '] = " = " := rfl
    have hend : bytes ['\n'] = Text.newline := rfl
    simp only [chars, text, Document.keyLine, bytes_append, bytes_replicate, hkey, hsep, hend,
      Written.bytes_chars h.2]

theorem isPlain_chars {e : Entry} (h : e.IsReadable) : ∀ c ∈ e.chars, IsPlain c := by
  have hblanks (n : Nat) : ∀ c ∈ List.replicate n ' ', IsPlain c := fun c hc => by
    rw [List.eq_of_mem_replicate hc]
    decide
  cases e with
  | item gap path =>
    have hgap : ∀ c ∈ (if gap then ['\n'] else []), IsPlain c :=
      isPlain_of_all (by cases gap <;> decide)
    simp only [chars, List.forall_mem_append, List.forall_mem_cons]
    exact ⟨⟨⟨hgap, hblanks _⟩, by decide, by decide, isPlain_pathChars h.2⟩, by decide, by decide,
      by decide, nofun⟩
  | field depth key value =>
    simp only [chars, List.forall_mem_append]
    exact ⟨⟨⟨⟨hblanks _, fun c hc => (h.1.2 c hc).2⟩, isPlain_of_all (by decide)⟩,
      Written.isPlain_chars h.2⟩, isPlain_of_all (by decide)⟩

theorem skipSpace_blanks (n : Nat) (cs : List Char) :
    skipSpace false (List.replicate n ' ' ++ cs) = skipSpace false cs := by
  induction n with
  | zero => rfl
  | succ n ih => simpa [List.replicate_succ, skipSpace, isSpace, isBlank] using ih

/-- A character at which a line can start. -/
theorem skipSpace_start {c : Char} (hs : isSpace c = false) (hc : c ≠ '#') (cs : List Char) :
    skipSpace false (c :: cs) = c :: cs := by
  simp [skipSpace, hs, hc]

theorem lineEnd_newline (rest : List Char) : lineEnd ('\n' :: rest) = .ok rest := by
  simp [lineEnd, skipBlanks, isBlank, isNewline]

theorem line_item {path : List String} (hne : path ≠ []) (h : ∀ s ∈ path, IsName s) {fuel : Nat}
    (hf : path.length ≤ fuel) (rest : List Char) :
    line fuel ('[' :: '[' :: (pathChars path ++ ']' :: ']' :: rest)) =
      (.item (path.map Text.ofString) rest.length, some rest) := by
  have hkey := key_pathChars hne h hf (']' :: rest)
  simp [line, itemLine, hkey, bind, Except.bind, pure, Except.pure]

theorem line_field {key : String} (hk : IsName key) {w : Written}
    (hw : ∀ t ∈ w.texts, t.IsReadable) {fuel : Nat} (hf : w.chars.length < fuel)
    {rest : List Char} (hrest : rest.head? ≠ some '"') :
    line fuel (key.toList ++ ' ' :: '=' :: (' ' :: w.chars ++ rest)) =
      (.define [(key : Text)] (' ' :: w.chars ++ rest).length w.value, some rest) := by
  have hkey : Toml.key '=' fuel (key.toList ++ ' ' :: '=' :: (' ' :: w.chars ++ rest)) =
      .ok ([(key : Text)], ' ' :: w.chars ++ rest) := by
    obtain ⟨fuel, rfl⟩ := Nat.exists_eq_succ_of_ne_zero (Nat.ne_of_gt (Nat.zero_lt_of_lt hf))
    rw [key_name hk (by decide) (by decide)]
    simp [skipBlanks, isBlank]
  -- a name does not start with a bracket, so this is no line that opens a table
  obtain ⟨c, cs, hs, hc⟩ := hk.head
  have hdefine : line fuel (key.toList ++ ' ' :: '=' :: (' ' :: w.chars ++ rest)) =
      defineLine fuel (key.toList ++ ' ' :: '=' :: (' ' :: w.chars ++ rest)) := by
    rw [hs, List.cons_append, line]
    · exact fun _ he => hc '[' (by decide) (List.cons.inj he).1
    · exact fun _ he => hc '[' (by decide) (List.cons.inj he).1
  rw [hdefine, defineLine, hkey]
  simp only [Written.value_chars hw hf hrest]

/-- A line that starts after some space and ends where it should. -/
theorem readLines_line {cs body rest : List Char} {l : Line} (hne : body ≠ [])
    (hskip : skipSpace false cs = body)
    (hline : line (2 * body.length) body = (l, some ('\n' :: rest))) (fuel : Nat) :
    readLines (fuel + 1) cs = l :: readLines fuel rest := by
  obtain ⟨c, body, rfl⟩ := List.exists_cons_of_ne_nil hne
  rw [readLines, hskip]
  simp only [hline, lineEnd_newline]

/-- **A written line is read back**, and then what follows it. -/
theorem readLines_chars {e : Entry} (h : e.IsReadable) (fuel : Nat) (rest : List Char) :
    ∃ l, e.Reads l ∧ readLines (fuel + 1) (e.chars ++ rest) = l :: readLines fuel rest := by
  cases e with
  | item gap path =>
    obtain ⟨hne, hnames⟩ := h
    have hlen := length_pathChars hnames
    refine ⟨_, .item, readLines_line (by simp) ?_ (line_item hne hnames ?_ ('\n' :: rest)) fuel⟩
    · have hgap (cs : List Char) :
          skipSpace false ((if gap then ['\n'] else []) ++ cs) = skipSpace false cs := by
        cases gap <;> simp [skipSpace, isSpace, isBlank, isNewline]
      simp only [chars, List.append_assoc, List.cons_append, List.nil_append]
      rw [hgap, skipSpace_blanks, skipSpace_start (by decide) (by decide)]
    · simp only [List.length_cons, List.length_append]
      omega
  | field depth key w =>
    obtain ⟨hk, hw⟩ := h
    obtain ⟨c, cs, hs, hc⟩ := hk.head
    have hend : ('\n' :: rest).head? ≠ some '"' := by simp
    refine ⟨_, .field, readLines_line (by simp) ?_ (line_field hk hw ?_ hend) fuel⟩
    · have hspace : isSpace c = false := by
        simp [isSpace, isBlank, isNewline, hc ' ' (by decide), hc '\t' (by decide),
          hc '\n' (by decide), hc '\r' (by decide)]
      simp only [chars, List.append_assoc, List.cons_append, List.nil_append]
      rw [skipSpace_blanks, hs, List.cons_append, skipSpace_start hspace (hc '#' (by decide))]
    · simp only [List.length_cons, List.length_append]
      omega

/-- Written lines are read back one by one. -/
theorem readLines_flatMap {es : List Entry} (h : ∀ e ∈ es, e.IsReadable) {fuel : Nat}
    (hf : es.length < fuel) : List.Forall₂ Reads es (readLines fuel (es.flatMap chars)) := by
  induction es generalizing fuel with
  | nil =>
    obtain ⟨fuel, rfl⟩ := Nat.exists_eq_succ_of_ne_zero (Nat.ne_of_gt hf)
    exact .nil
  | cons e es ih =>
    obtain ⟨he, hes⟩ := List.forall_mem_cons.1 h
    obtain ⟨fuel, rfl⟩ := Nat.exists_eq_succ_of_ne_zero (Nat.ne_of_gt (Nat.zero_lt_of_lt hf))
    obtain ⟨l, hl, hread⟩ := readLines_chars he fuel (es.flatMap chars)
    rw [List.flatMap_cons, hread]
    exact .cons hl (ih hes (Nat.lt_of_succ_lt_succ hf))

theorem length_le_flatMap_chars (es : List Entry) : es.length ≤ (es.flatMap chars).length := by
  induction es with
  | nil => exact Nat.le_refl 0
  | cons e es ih =>
    have he : 0 < e.chars.length := List.length_pos_of_ne_nil (by cases e <;> simp [chars])
    rw [List.flatMap_cons, List.length_append, List.length_cons]
    omega

theorem bytes_flatMap_chars {es : List Entry} (h : ∀ e ∈ es, e.IsReadable) :
    bytes (es.flatMap chars) = es.flatMap text := by
  induction es with
  | nil => rfl
  | cons e es ih =>
    obtain ⟨he, hes⟩ := List.forall_mem_cons.1 h
    rw [List.flatMap_cons, bytes_append, bytes_chars he, ih hes, List.flatMap_cons]

end Entry

theorem ne_zero_of_mem_bytes {cs : List Char} (h : ∀ c ∈ cs, IsPlain c) :
    ∀ b ∈ bytes cs, b ≠ 0 := by
  intro b hb
  obtain ⟨c, hc, hb⟩ := List.mem_flatMap.1 hb
  by_cases ha : c.toNat < 128
  · have hall := forall_ascii (P := fun c => IsPlain c → (0 : UInt8) ∉ Text.ofChar c)
      (by decide +kernel) ha (h c hc)
    exact fun h0 => hall (h0 ▸ hb)
  · have := Text.le_of_mem_ofChar ha hb
    rintro rfl
    exact absurd this (by decide)

/-- **The text of written lines is read as these lines**, unless it seems to start with a byte order
mark. -/
theorem parse_entries {es : List Entry} (h : ∀ e ∈ es, e.IsReadable)
    (hmark : dropMark (es.flatMap Entry.text) = es.flatMap Entry.text) :
    ∃ ls, List.Forall₂ Entry.Reads es ls ∧ ∀ b, ({} : Builder).add [] ls = .ok b →
      parse (es.flatMap Entry.text) = .ok { root := b.root, keys := b.keys.reverse } := by
  have hplain : ∀ c ∈ es.flatMap Entry.chars, IsPlain c := fun c hc => by
    obtain ⟨e, he, hc⟩ := List.mem_flatMap.1 hc
    exact Entry.isPlain_chars (h e he) c hc
  have hbytes := Entry.bytes_flatMap_chars h
  have hchars : characters (Text.runes (es.flatMap Entry.text)) = es.flatMap Entry.chars := by
    rw [← hbytes, characters_bytes hplain]
  -- a zero among the first bytes would be taken for a sign of wide characters
  have hwide : isWide (es.flatMap Entry.text) = false := by
    rw [isWide, ← hbytes, ← Bool.not_eq_true, List.contains_iff_mem]
    exact fun h0 => ne_zero_of_mem_bytes hplain 0 (List.mem_of_mem_take h0) rfl
  have hf := Nat.lt_succ_of_le (Entry.length_le_flatMap_chars es)
  refine ⟨_, Entry.readLines_flatMap h hf, fun b hb => ?_⟩
  simp only [parse, hmark, hwide, hchars, read, Bool.false_eq_true, ↓reduceIte, hb]

end Toml

end StumpGen
