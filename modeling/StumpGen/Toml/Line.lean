import StumpGen.Toml.Scalar

/-!
# Reading the lines of a TOML text

`Toml.read` reads a text as far as it follows the rules.  Readers of things with parts give
what they read even when they have to stop in the midst of it; a mistake is then the last part,
and no characters are left.
-/

namespace StumpGen

namespace Toml

/-- What is read, and the characters that follow; there are none to go on with after a
mistake. -/
abbrev Partly (α : Type) := α × Option (List Char)

/-! ### Keys -/

/-- Whether the character may stand in a key without quotes. -/
def isBareChar (c : Char) : Bool := c.isAlphanum || c == '_' || c == '-'

/-- A part of a key. -/
def keyPart (cs : List Char) : Except Stop (Found Text) :=
  if cs.head?.any fun c => c == '"' || c == '\'' then shortString cs
  else
    match cs.takeWhile isBareChar with
    | [] => .error (unexpected cs)
    | s => .ok (bytes s, cs.drop s.length)

/-- A key and the character that ends it.  That character, a point or the end of the text in
place of a part is a mistake in front of that place. -/
def key (stop : Char) : Nat → List Char → Except Stop (Found Key)
  | 0, cs => .error (.here cs.length)
  | fuel + 1, cs =>
    let cs := skipBlanks cs
    if cs.head?.all fun c => c == stop || c == '.' then .error (.here cs.length)
    else do
      let (part, cs) ← keyPart cs
      match skipBlanks cs with
      | [] => .error .atEnd
      | c :: rest =>
        if c = stop then pure ([part], rest)
        else if c = '.' then do
          let (parts, rest) ← key stop fuel rest
          pure (part :: parts, rest)
        else .error (.here rest.length)

/-! ### Values -/

/-- Whether the character is part of a comment that has begun. -/
def inComment (c : Char) : Bool := !isNewline c && c != unreadable

/-- Skips blanks, line ends and comments; `comment` is set within a comment. -/
def skipSpace (comment : Bool) : List Char → List Char
  | [] => []
  | c :: cs =>
    if comment && inComment c then skipSpace true cs
    else if isSpace c then skipSpace false cs
    else if c = '#' then skipSpace true cs
    else c :: cs

/-- Skips blanks and a comment. -/
def skipComment (cs : List Char) : List Char :=
  match skipBlanks cs with
  | '#' :: cs => cs.dropWhile inComment
  | cs => cs

/-- A mistake within braces.  A line end there counts to the line that it ends. -/
def unclosed : List Char → Stop
  | [] => .atEnd
  | c :: cs => if isNewline c then .before cs.length else .here cs.length

/-- A mistake in place of an entry of an inline table. -/
def brokenEntry (stop : Stop) : Key × Nat × Value := ([], 0, .broken stop)

mutual

/-- A value.  Each step inward or onward takes one of `fuel`. -/
def value : Nat → List Char → Partly Value
  | 0, cs => (.broken (.here cs.length), none)
  | fuel + 1, cs =>
    match skipBlanks cs with
    | '[' :: cs =>
      let (vs, rest) := items fuel cs
      (.array vs, rest)
    | '\x7b' :: cs =>
      let (es, rest) := entries fuel cs
      (.inline es, rest)
    | cs =>
      match scalar cs with
      | .ok (v, rest) => (v, some rest)
      | .error stop => (.broken stop, none)

/-- The items of an array, up to its closing bracket. -/
def items : Nat → List Char → Partly (List Value)
  | 0, cs => ([.broken (.here cs.length)], none)
  | fuel + 1, cs =>
    match skipSpace false cs with
    | ']' :: rest => ([], some rest)
    | cs =>
      match value fuel cs with
      | (v, none) => ([v], none)
      | (v, some cs) =>
        match skipSpace false cs with
        | ']' :: rest => ([v], some rest)
        | ',' :: cs =>
          let (vs, rest) := items fuel cs
          (v :: vs, rest)
        | cs => ([v, .broken (unexpected cs)], none)

/-- The definitions of an inline table, up to its closing brace.  A comment reaches to the end
of its line and so never stands in one that is closed. -/
def entries : Nat → List Char → Partly (List (Key × Nat × Value))
  | 0, cs => ([brokenEntry (.here cs.length)], none)
  | fuel + 1, cs =>
    match skipComment cs with
    | '\x7d' :: rest => ([], some rest)
    | cs =>
      if cs.head?.any isNewline then ([brokenEntry (unclosed cs)], none)
      else
        match key '=' (fuel + 1) cs with
        | .error stop => ([brokenEntry stop], none)
        | .ok (k, cs) =>
          match value fuel cs with
          | (v, none) => ([(k, cs.length, v)], none)
          | (v, some rest) =>
            match skipComment rest with
            | '\x7d' :: rest => ([(k, cs.length, v)], some rest)
            | ',' :: rest =>
              if (skipBlanks rest).head? = some '\x7d' then
                ([(k, cs.length, v), brokenEntry (.here rest.length)], none)
              else
                let (es, rest) := entries fuel rest
                ((k, cs.length, v) :: es, rest)
            | rest => ([(k, cs.length, v), brokenEntry (unclosed rest)], none)

end

/-! ### Lines -/

/-- What follows the end of a line, after blanks and a comment. -/
def lineEnd (cs : List Char) : Except Stop (List Char) :=
  match skipBlanks cs with
  | [] => .ok []
  | c :: cs =>
    if c = '#' then .ok (cs.dropWhile inComment)
    else if isNewline c then .ok cs
    else .error (.here cs.length)

/-- The line that opens a table, from its key on. -/
def tableLine (fuel : Nat) (cs : List Char) : Except Stop (Found Line) := do
  let (k, rest) ← key ']' fuel cs
  pure (.table k rest.length, rest)

/-- The line that opens a table of a list, from its key on. -/
def itemLine (fuel : Nat) (cs : List Char) : Except Stop (Found Line) := do
  let (k, rest) ← key ']' fuel cs
  match rest with
  | ']' :: rest => pure (.item k rest.length, rest)
  | rest => .error (unexpected rest)

/-- The line that defines a key. -/
def defineLine (fuel : Nat) (cs : List Char) : Partly Line :=
  match key '=' fuel cs with
  | .error stop => (.broken stop, none)
  | .ok (k, cs) =>
    let (v, rest) := value fuel cs
    (.define k cs.length v, rest)

/-- One line without its end, from its first character that is no space. -/
def line (fuel : Nat) (cs : List Char) : Partly Line :=
  let opening (r : Except Stop (Found Line)) : Partly Line :=
    match r with
    | .error stop => (.broken stop, none)
    | .ok (l, rest) => (l, some rest)
  match cs with
  | '[' :: '[' :: cs => opening (itemLine fuel cs)
  | '[' :: cs => opening (tableLine fuel cs)
  | cs => defineLine fuel cs

/-- The lines up to the end or the first mistake.  No character takes more than two steps
inward. -/
def readLines : Nat → List Char → List Line
  | 0, _ => []
  | fuel + 1, cs =>
    match skipSpace false cs with
    | [] => []
    | cs =>
      match line (2 * cs.length) cs with
      | (l, none) => [l]
      | (l, some rest) =>
        match lineEnd rest with
        | .error stop => [l, .broken stop]
        | .ok rest => l :: readLines fuel rest

/-! ### Characters -/

/-- Whether the character may not stand anywhere: control characters but tabs and line ends, and
the mark of a character that was lost. -/
def isForbidden (c : Char) : Bool :=
  (c.toNat < 32 && c != '\t' && c != '\n' && c != '\r') || c.toNat == 127 || c == '\uFFFD'

/-- The characters of a text.  In place of the first that may not stand there (a byte that is
not part of a character, a forbidden character, or a carriage return that ends no line) there
is `unreadable`, and nothing after it. -/
def characters : List Rune → List Char
  | [] => []
  | .stray _ :: _ => [unreadable]
  | .scalar c :: rs =>
    if isForbidden c ∨ (c = '\r' ∧ rs.head? ≠ some (.scalar '\n')) then [unreadable]
    else c :: characters rs

/-- Without a byte order mark at the start, in any of the encodings that have one. -/
def dropMark : Text → Text
  | 0xff :: 0xfe :: t | 0xfe :: 0xff :: t | 0xef :: 0xbb :: 0xbf :: t => t
  | t => t

/-- Whether a text looks like one of wide characters: there is a zero among its first bytes. -/
def isWide (t : Text) : Bool := (t.take 6).contains 0

/-- What is said of such a text. -/
def wideMessage : Text :=
  "files cannot contain NULL bytes; probably using UTF-16; TOML files must be UTF-8"

/-- The line of the place with so many characters left. -/
def lineAt (cs : List Char) (remaining : Nat) : Nat :=
  1 + (cs.take (cs.length - remaining)).count '\n'

/-- The line where reading stopped. -/
def Stop.line (cs : List Char) : Stop → Nat
  | .here n | .invalid n _ => lineAt cs n
  | .before n => lineAt cs n - 1

/-- The lines of a text with these characters. -/
def read (cs : List Char) : List Line := readLines (cs.length + 1) cs

end Toml

end StumpGen
