import StumpGen.Text.Numeral
import StumpGen.Toml.Value

/-!
# Strings, numbers and dates in TOML

The readers of this module take the characters that follow and give what they read together
with the characters left.  When they cannot go on they say where (`Toml.Stop`).
-/

namespace StumpGen

namespace Toml

/-- What is read, and the characters that follow. -/
abbrev Found (α : Type) := α × List Char

/-- The bytes of characters. -/
def bytes (cs : List Char) : Text := cs.flatMap Text.ofChar

/-- Stands for whatever may not stand in a text. -/
def unreadable : Char := '\x00'

/-- Whether the character is a blank within a line. -/
def isBlank (c : Char) : Bool := c == ' ' || c == '\t'

/-- Whether the character ends a line. -/
def isNewline (c : Char) : Bool := c == '\n' || c == '\r'

/-- The characters from the first that is no blank. -/
def skipBlanks (cs : List Char) : List Char := cs.dropWhile isBlank

/-- The mistake that the next character is.  A line end is counted as passed. -/
def unexpected : List Char → Stop
  | [] => .atEnd
  | _ :: cs => .here cs.length

/-! ### Strings -/

/-- Whether the character is a hexadecimal digit. -/
def isHexDigit (c : Char) : Bool :=
  c.isDigit || ('a' ≤ c && c ≤ 'f') || ('A' ≤ c && c ≤ 'F')

/-- The mistake if `n` hexadecimal digits do not follow. -/
def missingDigit? : Nat → List Char → Option Stop
  | 0, _ => none
  | n + 1, c :: cs => if isHexDigit c then missingDigit? n cs else some (.here cs.length)
  | _ + 1, [] => some .atEnd

/-- The character that an escape of one letter stands for. -/
def escaped? : Char → Option Char
  | 'b' => some '\x08'
  | 't' => some '\t'
  | 'n' => some '\n'
  | 'f' => some '\x0c'
  | 'r' => some '\r'
  | '"' => some '"'
  | '\\' => some '\\'
  | _ => none

/-- The mistake if the character after a backslash, before the given ones, starts no escape.
Blanks may follow a backslash here; whether they mean something is seen later. -/
def badEscape? (c : Char) (cs : List Char) : Option Stop :=
  if c = 'u' then missingDigit? 4 cs
  else if c = 'U' then missingDigit? 8 cs
  else if (escaped? c).isSome ∨ isBlank c then none
  else some (.here cs.length)

/-- The contents of a basic string, with nothing replaced yet, up to its closing quote. -/
def basicString : List Char → Except Stop (Found (List Char))
  | [] => .error .atEnd
  | ['\\'] => .error .atEnd
  | '\\' :: c :: cs =>
    match badEscape? c cs with
    | some stop => .error stop
    | none => do
      let (s, rest) ← basicString cs
      pure ('\\' :: c :: s, rest)
  | c :: cs =>
    if c = '"' then .ok ([], cs)
    else if isNewline c then .error (.before cs.length)
    else if c = unreadable then .error (.here cs.length)
    else do
      let (s, rest) ← basicString cs
      pure (c :: s, rest)

/-- The rest of a literal string, up to its closing quote. -/
def literalString : List Char → Except Stop (Found (List Char))
  | [] => .error .atEnd
  | c :: cs =>
    if c = '\'' then .ok ([], cs)
    else if isNewline c then .error (.before cs.length)
    else if c = unreadable then .error (.here cs.length)
    else do
      let (s, rest) ← literalString cs
      pure (c :: s, rest)

/-- Without a line end at the start. -/
def dropFirstNewline : List Char → List Char
  | '\n' :: cs => cs
  | '\r' :: '\n' :: cs => cs
  | cs => cs

/-- Whether contents, given backwards, end in as many quotes as may stand in front of the
closing ones.  Quotes directly behind a backslash are not counted, if `escapes` is set. -/
def isFull (quote : Char) (escapes : Bool) : List Char → Bool
  | a :: b :: cs => a == quote && b == quote && !(escapes && cs.head? == some '\\')
  | _ => false

/-- The contents of a string of several lines, with nothing replaced yet, up to its three
closing quotes; `read` holds what is already read, backwards.  Up to two quotes may stand
directly in front of the closing ones. -/
def longString (quote : Char) (escapes : Bool) (read : List Char) :
    List Char → Except Stop (Found (List Char))
  | [] => .error .atEnd
  | c :: cs =>
    if c = unreadable then .error (.here cs.length)
    else if c = quote ∧ [quote, quote].isPrefixOf cs then
      match cs.drop 2 with
      | [] => .ok (read.reverse, [])
      | d :: ds =>
        if d = unreadable then .error (.here ds.length)
        else if d ≠ quote then .ok (read.reverse, d :: ds)
        else if isFull quote escapes read then .error (.here (ds.length + 1))
        else longString quote escapes (c :: read) cs
    else if escapes ∧ c = '\\' then
      match cs with
      | [] => .error .atEnd
      | d :: ds =>
        match if isNewline d then none else badEscape? d ds with
        | some stop => .error stop
        | none => longString quote escapes (d :: c :: read) ds
    else longString quote escapes (c :: read) cs

/-- Whether the character is dropped after a backslash that ends a line. -/
def isSpace (c : Char) : Bool := isBlank c || isNewline c

/-- The character whose code these hexadecimal digits give. -/
def codeChar (digits : List Char) : Except Text Char :=
  match Numeral.readNat 16 (bytes digits) with
  | .ok n =>
    if n.isValidChar then .ok (Char.ofNat n)
    else .error ("Escaped character '\\u" ++ bytes digits ++ "' is not valid UTF-8.")
  | .error _ => .error []

/-- The character that an escape of one letter stands for. -/
def escapedChar (c : Char) : Except Text Char :=
  match escaped? c with
  | some x => .ok x
  | none => .error ("invalid escape: '\\" ++ bytes [c] ++ "'")

/-- Replaces the escapes in the contents of a string, or says why one has no meaning.  A
backslash at the end of a line takes with it all blanks and line ends that follow; `dropping`
is set while it does. -/
def unescape (dropping : Bool) : List Char → Except Text (List Char)
  | [] => .ok []
  | '\\' :: 'u' :: a :: b :: c :: d :: cs => do
    let x ← codeChar [a, b, c, d]
    return x :: (← unescape false cs)
  | '\\' :: 'U' :: a :: b :: c :: d :: e :: f :: g :: h :: cs => do
    let x ← codeChar [a, b, c, d, e, f, g, h]
    return x :: (← unescape false cs)
  | '\\' :: c :: cs =>
    if isSpace c ∧ (c = '\n' ∨ (cs.takeWhile isSpace).contains '\n') then unescape true cs
    else do
      let x ← escapedChar c
      return x :: (← unescape false cs)
  | c :: cs =>
    if dropping ∧ isSpace c then unescape true cs
    else return c :: (← unescape false cs)

/-- The text of a string with these contents, in front of the given characters. -/
def unescaped (raw rest : List Char) : Except Stop (Found Text) :=
  match unescape false raw with
  | .ok s => .ok (bytes s, rest)
  | .error detail => .error (.invalid rest.length detail)

/-- A string of one line, from its opening quote on. -/
def shortString : List Char → Except Stop (Found Text)
  | '"' :: cs => do
    let (raw, rest) ← basicString cs
    unescaped raw rest
  | '\'' :: cs => do
    let (s, rest) ← literalString cs
    pure (bytes s, rest)
  | cs => .error (unexpected cs)

/-- A string, from its opening quotes on. -/
def string : List Char → Except Stop (Found Text)
  | '"' :: '"' :: '"' :: cs => do
    let (raw, rest) ← longString '"' true [] cs
    unescaped (dropFirstNewline raw) rest
  | '\'' :: '\'' :: '\'' :: cs => do
    let (raw, rest) ← longString '\'' false [] cs
    pure (bytes (dropFirstNewline raw), rest)
  | cs => shortString cs

/-! ### Numbers -/

/-- Whether each underscore follows a digit and the last character is a digit. -/
def underscoresOk (accept : Bool) : List Char → Bool
  | [] => accept
  | c :: cs =>
    (c != '_' || accept) && underscoresOk (isHexDigit c) cs

/-- Without its underscores. -/
def dropUnderscores (cs : List Char) : List Char := cs.filter (· ≠ '_')

/-- Whether decimal digits, after an optional sign, start with a zero that is not alone. -/
def hasLeadingZero : List Char → Bool
  | '0' :: _ :: _ | '+' :: '0' :: _ :: _ | '-' :: '0' :: _ :: _ => true
  | _ => false

/-- A number as it is shown in what is said about it. -/
def shown (lexeme : List Char) : Text := "\"" ++ bytes lexeme ++ "\""

/-- A number that means nothing, and why. -/
def invalidNumber (kind : String) (lexeme rest : List Char) (why : String) : Stop :=
  .invalid rest.length ("Invalid " ++ kind ++ " " ++ shown lexeme ++ ": " ++ why)

/-- What is said of a number with an underscore at a wrong place. -/
def strayUnderscore : String := "underscores must be surrounded by digits"

/-- What is said of a number with a zero too many. -/
def leadingZero : String := "cannot have leading zeroes"

/-- An integer of 64 bits: its lexeme, of which the digits in the given base are the last
part. -/
def integer (base : Nat) (lexeme digits rest : List Char) : Except Stop (Found Value) :=
  if !underscoresOk false lexeme then .error (invalidNumber "integer" lexeme rest strayUnderscore)
  else if base = 10 ∧ hasLeadingZero lexeme then
    .error (invalidNumber "integer" lexeme rest leadingZero)
  else
    match Numeral.readInt base (bytes (dropUnderscores digits)) with
    | .ok n => .ok (.integer n, rest)
    | .error _ => .error (.here rest.length)

/-- Decimal digits and nothing else, at least one. -/
def digits? (cs : List Char) : Option Nat :=
  if cs ≠ [] ∧ cs.all Char.isDigit then (Nat.ofDigitChars 10 cs 0) else none

/-- Whether digits with the point `scale` places from the right and an exponent are below the
first number that has no place among 64-bit floating-point numbers. -/
def isFinite (mantissa scale : Nat) (exponent : Int) : Bool :=
  let width := (Nat.toDigits 10 mantissa).length
  let top : Int := width + exponent - scale
  if mantissa = 0 ∨ top < 308 then true
  else if 310 < top then false
  else
    let limit := Nat.pow 2 1024 - Nat.pow 2 970
    let power := exponent - scale
    if 0 ≤ power then mantissa * Nat.pow 10 power.toNat < limit
    else mantissa < limit * Nat.pow 10 (-power).toNat

/-- Without a sign in front. -/
def dropSign : List Char → List Char
  | '+' :: cs | '-' :: cs => cs
  | cs => cs

/-- Whether the character stands between the significant digits and the exponent. -/
def isExponentMark (c : Char) : Bool := c == 'e' || c == 'E'

/-- The digits of a number without underscores, how many of them stand behind the point, and its
exponent. -/
def floatDigits? (cs : List Char) : Option (Nat × Nat × Int) := do
  let significand := dropSign (cs.takeWhile fun c => !isExponentMark c)
  let whole := significand.takeWhile (· ≠ '.')
  let fraction := significand.drop (whole.length + 1)
  let mantissa ← digits? (whole ++ fraction)
  let exponent ← match cs.dropWhile fun c => !isExponentMark c with
    | [] => some 0
    | _ :: '-' :: ds => (digits? ds).map fun n => -(n : Int)
    | _ :: ds => (digits? (dropSign ds)).map Int.ofNat
  pure (mantissa, fraction.length, exponent)

/-- The parts of a number between points and exponent marks. -/
def floatParts (cs : List Char) : List (List Char) :=
  let add (c : Char) : List (List Char) → List (List Char)
    | p :: ps => if c = '.' ∨ isExponentMark c then [] :: p :: ps else (c :: p) :: ps
    | [] => []
  (cs.foldr add [[]]).filter (· ≠ [])

/-- Whether a digit follows each point. -/
def pointsOk : List Char → Bool
  | [] => true
  | c :: cs => (c != '.' || cs.head?.any Char.isDigit) && pointsOk cs

/-- A number with a fraction or an exponent, which must have a place among 64-bit
floating-point numbers. -/
def float (lexeme rest : List Char) : Except Stop (Found Value) :=
  let parts := floatParts lexeme
  if !parts.all (underscoresOk false) then
    .error (invalidNumber "float" lexeme rest strayUnderscore)
  else if parts.head?.any hasLeadingZero then .error (invalidNumber "float" lexeme rest leadingZero)
  else if !pointsOk lexeme then
    .error (invalidNumber "float" lexeme rest "'.' must be followed by one or more digits")
  else
    match floatDigits? (dropUnderscores lexeme) with
    | none => .error (.invalid rest.length ("Invalid float value: " ++ shown lexeme))
    | some (mantissa, scale, exponent) =>
      if isFinite mantissa scale exponent then .ok (.float, rest) else .error (.here rest.length)

/-! ### Dates and times -/

/-- Two digits. -/
def twoDigits? : List Char → Option (Nat × List Char)
  | a :: b :: cs => (digits? [a, b]).map (·, cs)
  | _ => none

/-- The number of days of a month. -/
def daysIn (year month : Nat) : Nat :=
  if month = 2 then
    if year % 4 = 0 ∧ (year % 100 ≠ 0 ∨ year % 400 = 0) then 29 else 28
  else if month = 4 ∨ month = 6 ∨ month = 9 ∨ month = 11 then 30
  else 31

/-- What follows a date. -/
def date? : List Char → Option (List Char)
  | a :: b :: c :: d :: '-' :: cs => do
    let year ← digits? [a, b, c, d]
    let (month, cs) ← twoDigits? cs
    match cs with
    | '-' :: cs => do
      let (day, cs) ← twoDigits? cs
      guard (1 ≤ month ∧ month ≤ 12 ∧ 1 ≤ day ∧ day ≤ daysIn year month)
      pure cs
    | _ => none
  | _ => none

/-- The hour of a time of day, which may have one digit. -/
def hour? (cs : List Char) : Option (Nat × List Char) :=
  match cs with
  | a :: ':' :: rest => (digits? [a]).map (·, ':' :: rest)
  | cs => twoDigits? cs

/-- What follows a fraction of a second, which may be missing. -/
def dropFraction : List Char → List Char
  | '.' :: c :: cs => if c.isDigit then cs.dropWhile Char.isDigit else '.' :: c :: cs
  | cs => cs

/-- What follows a time of day. -/
def clock? (cs : List Char) : Option (List Char) := do
  let (hour, cs) ← hour? cs
  match cs with
  | ':' :: cs => do
    let (minute, cs) ← twoDigits? cs
    match cs with
    | ':' :: cs => do
      let (second, cs) ← twoDigits? cs
      guard (hour < 24 ∧ minute < 60 ∧ second < 60)
      pure (dropFraction cs)
    | _ => none
  | _ => none

/-- Whether characters are a distance from universal time. -/
def isZone : List Char → Bool
  | ['Z'] => true
  | [sign, a, b, ':', c, d] =>
    (sign == '+' || sign == '-')
      && (digits? [a, b]).any (· ≤ 24) && (digits? [c, d]).any (· ≤ 60)
  | _ => false

/-- The letters of a date in their upper-case form; a blank stands for a `T`. -/
def dateChar (c : Char) : Char :=
  if c = 't' ∨ c = ' ' then 'T' else if c = 'z' then 'Z' else c

/-- Whether characters are a date, a time of day, or both. -/
def isDatetime (cs : List Char) : Bool :=
  match date? cs with
  | some [] => true
  | some ('T' :: rest) =>
    match clock? rest with
    | some [] => true
    | some zone => isZone zone
    | none => false
  | some _ => false
  | none => clock? cs == some []

/-! ### Values that start with a digit or sign -/

/-- A number in another base, from its digits on, after what names the base. -/
def basedNumber (base : Nat) (mark : List Char) (isDigit : Char → Bool) (cs : List Char) :
    Except Stop (Found Value) :=
  let digits := cs.takeWhile fun c => isDigit c || c == '_'
  if cs.head?.any isDigit then integer base (mark ++ digits) digits (cs.drop digits.length)
  else .error (.here cs.length)

/-- Whether the character may stand in a number with a fraction or an exponent. -/
def isFloatChar (c : Char) : Bool :=
  c.isDigit || ['_', '.', '-', '+', 'e', 'E'].contains c

/-- Whether the character may stand in a date or time. -/
def isDateChar (c : Char) : Bool :=
  c.isDigit || ['-', ':', 'T', 't', ' ', '.', 'Z', 'z', '+'].contains c

/-- A decimal number, after a sign or none. -/
def decimalNumber (sign : List Char) (cs : List Char) : Except Stop (Found Value) :=
  let whole := cs.takeWhile fun c => c.isDigit || c == '_'
  let rest := cs.drop whole.length
  if rest.head?.any ['.', 'e', 'E'].contains then
    let lexeme := cs.takeWhile isFloatChar
    float (sign ++ lexeme) (cs.drop lexeme.length)
  else integer 10 (sign ++ whole) (sign ++ whole) rest

/-- A date or time. -/
def dateOrTime (cs : List Char) : Except Stop (Found Value) :=
  let lexeme := cs.takeWhile isDateChar
  let rest := cs.drop lexeme.length
  let date := ((lexeme.reverse.dropWhile (· = ' ')).reverse).map dateChar
  if isDatetime date then .ok (.datetime, rest)
  else .error (.invalid rest.length ("Invalid TOML Datetime: " ++ shown date ++ "."))

/-- Whether digits follow that start a date or time.  The first number of one that starts with a
zero has more digits. -/
def startsDate (cs : List Char) : Bool :=
  let digits := cs.takeWhile Char.isDigit
  digits != ['0'] && (cs.drop digits.length).head?.any fun c => c == '-' || c == ':'

/-- A number or a date, from its first digit on. -/
def numberOrDate : List Char → Except Stop (Found Value)
  | '0' :: 'x' :: cs => basedNumber 16 ['0', 'x'] isHexDigit cs
  | '0' :: 'o' :: cs => basedNumber 8 ['0', 'o'] (fun c => '0' ≤ c && c ≤ '7') cs
  | '0' :: 'b' :: cs => basedNumber 2 ['0', 'b'] (fun c => c == '0' || c == '1') cs
  | cs => if startsDate cs then dateOrTime cs else decimalNumber [] cs

/-- A number after its sign. -/
def signedNumber (sign : Char) : List Char → Except Stop (Found Value)
  | 'i' :: 'n' :: 'f' :: cs | 'n' :: 'a' :: 'n' :: cs => .ok (.float, cs)
  | c :: cs => if c.isDigit then decimalNumber [sign] (c :: cs) else .error (.here cs.length)
  | [] => .error .atEnd

/-! ### Values without parts -/

/-- A value that is neither an array nor a table, from its first character on. -/
def scalar : List Char → Except Stop (Found Value)
  | 't' :: 'r' :: 'u' :: 'e' :: rest => .ok (.boolean true, rest)
  | 'f' :: 'a' :: 'l' :: 's' :: 'e' :: rest => .ok (.boolean false, rest)
  | 'i' :: 'n' :: 'f' :: rest | 'n' :: 'a' :: 'n' :: rest => .ok (.float, rest)
  | '+' :: cs => signedNumber '+' cs
  | '-' :: cs => signedNumber '-' cs
  | cs =>
    if cs.head?.any fun c => c == '"' || c == '\'' then do
      let (s, rest) ← string cs
      pure (.string s, rest)
    else if cs.head?.any Char.isDigit then numberOrDate cs
    else .error (unexpected cs)

end Toml

end StumpGen
