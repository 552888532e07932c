import StumpGen.Text

/-!
# MessagePack values

A MessagePack value starts with a head, one to five bytes that give its type and size or the
value itself (`MessagePack.Head`).  Strings and lists are preceded by their length, so a reader
knows how much to take before it looks at the contents.  Writers use the shortest head.
-/

namespace StumpGen

namespace MessagePack

/-- What the first bytes of a value say. -/
inductive Head where
  /-- No value. -/
  | nil
  /-- A truth value. -/
  | boolean (value : Bool)
  /-- An integer. -/
  | integer (value : Int)
  /-- A floating-point number, whose bytes follow. -/
  | float (size : Nat)
  /-- A text or a sequence of bytes, which follow. -/
  | text (size : Nat)
  /-- A list, whose items follow. -/
  | array (size : Nat)
  /-- A map, whose keys and values follow. -/
  | map (size : Nat)
  /-- A value of another type, whose bytes follow. -/
  | extended (type : Nat) (size : Nat)
  deriving DecidableEq, Repr, Inhabited

/-- What is read, and the bytes that follow. -/
abbrev Found (α : Type) := α × Text

/-! ### Reading -/

/-- The number whose bytes are given, the highest first. -/
def number (bytes : Text) : Nat := bytes.foldl (fun n b => 256 * n + b.toNat) 0

/-- Takes `n` bytes. -/
def take (n : Nat) (t : Text) : Option (Found Text) :=
  let bytes := t.take n
  if bytes.length = n then some (bytes, t.drop n) else none

/-- Takes an unsigned number of `n` bytes. -/
def unsigned (n : Nat) (t : Text) : Option (Found Nat) :=
  (take n t).map fun (bs, rest) => (number bs, rest)

/-- Takes a signed number of `n` bytes. -/
def signed (n : Nat) (t : Text) : Option (Found Int) :=
  (unsigned n t).map fun (v, rest) =>
    (if 2 * v < Nat.pow 256 n then (v : Int) else (v : Int) - Nat.pow 256 n, rest)

/-- Takes a size of `n` bytes and applies a head to it. -/
def sized (n : Nat) (head : Nat → Head) (t : Text) : Option (Found Head) :=
  (unsigned n t).map fun (v, rest) => (head v, rest)

/-- Takes the type of an extended value of a known size. -/
def extension (size : Nat) (t : Text) : Option (Found Head) :=
  (unsigned 1 t).map fun (type, rest) => (.extended type size, rest)

/-- Takes the size and type of an extended value. -/
def sizedExtension (n : Nat) (t : Text) : Option (Found Head) := do
  let (size, t) ← unsigned n t
  extension size t

/-- Takes the head of a value. -/
def head : Text → Option (Found Head)
  | [] => none
  | b :: t =>
    if b < 0x80 then some (.integer b.toNat, t)
    else if b < 0x90 then some (.map (b.toNat - 0x80), t)
    else if b < 0xa0 then some (.array (b.toNat - 0x90), t)
    else if b < 0xc0 then some (.text (b.toNat - 0xa0), t)
    else if 0xe0 ≤ b then some (.integer (b.toNat - 256), t)
    else match b.toNat with
      | 0xc0 => some (.nil, t)
      | 0xc2 => some (.boolean false, t)
      | 0xc3 => some (.boolean true, t)
      | 0xc4 | 0xd9 => sized 1 .text t
      | 0xc5 | 0xda => sized 2 .text t
      | 0xc6 | 0xdb => sized 4 .text t
      | 0xc7 => sizedExtension 1 t
      | 0xc8 => sizedExtension 2 t
      | 0xc9 => sizedExtension 4 t
      | 0xca => some (.float 4, t)
      | 0xcb => some (.float 8, t)
      | 0xcc => sized 1 (fun v => .integer v) t
      | 0xcd => sized 2 (fun v => .integer v) t
      | 0xce => sized 4 (fun v => .integer v) t
      | 0xcf => sized 8 (fun v => .integer v) t
      | 0xd0 => (signed 1 t).map fun (v, rest) => (.integer v, rest)
      | 0xd1 => (signed 2 t).map fun (v, rest) => (.integer v, rest)
      | 0xd2 => (signed 4 t).map fun (v, rest) => (.integer v, rest)
      | 0xd3 => (signed 8 t).map fun (v, rest) => (.integer v, rest)
      | 0xd4 => extension 1 t
      | 0xd5 => extension 2 t
      | 0xd6 => extension 4 t
      | 0xd7 => extension 8 t
      | 0xd8 => extension 16 t
      | 0xdc => sized 2 .array t
      | 0xdd => sized 4 .array t
      | 0xde => sized 2 .map t
      | 0xdf => sized 4 .map t
      | _ => none

/-- Takes a text; no value counts as the empty text. -/
def text (t : Text) : Option (Found Text) :=
  match head t with
  | some (.text n, rest) => take n rest
  | some (.nil, rest) => some ([], rest)
  | _ => none

/-- Whether an extended value is a point in time. -/
def isTime (type size : Nat) : Bool := type == 255 && (size == 4 || size == 8 || size == 12)

mutual

/-- Drops a value of any type.  Keys of maps have to be texts, and of the extended types only
points in time are known.  Each step inward or onward takes one of `fuel`, and no byte takes
more than two steps. -/
def skip : Nat → Text → Option Text
  | 0, _ => none
  | fuel + 1, t =>
    match head t with
    | none => none
    | some (.nil, rest) | some (.boolean _, rest) | some (.integer _, rest) => some rest
    | some (.float n, rest) | some (.text n, rest) => (take n rest).map Prod.snd
    | some (.array n, rest) => skipItems fuel n rest
    | some (.map n, rest) => skipEntries fuel n rest
    | some (.extended type n, rest) =>
      if isTime type n then (take n rest).map Prod.snd else none

/-- Drops the items of a list. -/
def skipItems : Nat → Nat → Text → Option Text
  | _, 0, t => some t
  | 0, _, _ => none
  | fuel + 1, n + 1, t => do
    let t ← skip fuel t
    skipItems fuel n t

/-- Drops the entries of a map. -/
def skipEntries : Nat → Nat → Text → Option Text
  | _, 0, t => some t
  | 0, _, _ => none
  | fuel + 1, n + 1, t => do
    let (_, t) ← text t
    let t ← skip fuel t
    skipEntries fuel n t

end

/-- Drops `n` values, whatever they are.  Each value takes one of `fuel`. -/
def drop : Nat → Nat → Text → Option Text
  | _, 0, t => some t
  | 0, _ + 1, _ => none
  | fuel + 1, n + 1, t =>
    match head t with
    | none => none
    | some (.nil, rest) | some (.boolean _, rest) | some (.integer _, rest) => drop fuel n rest
    | some (.float k, rest) | some (.text k, rest) | some (.extended _ k, rest) => do
      let (_, rest) ← take k rest
      drop fuel n rest
    | some (.array k, rest) => drop fuel (k + n) rest
    | some (.map k, rest) => drop fuel (2 * k + n) rest

/-- Takes an integer of 64 bits; no value counts as zero. -/
def integer (t : Text) : Option (Found Int) :=
  match head t with
  | some (.integer n, rest) => some (n.bmod 0x10000000000000000, rest)
  | some (.nil, rest) => some (0, rest)
  | _ => none

/-! ### Writing -/

/-- A number in `n` bytes, the highest first. -/
def big : Nat → Nat → Text
  | 0, _ => []
  | n + 1, v => big n (v / 256) ++ [(v % 256).toUInt8]

/-- The head of a text. -/
def textHead (n : Nat) : Text :=
  if n < 32 then [(0xa0 + n).toUInt8]
  else if n < 256 then 0xd9 :: big 1 n
  else if n < 65536 then 0xda :: big 2 n
  else 0xdb :: big 4 n

/-- A text. -/
def ofText (t : Text) : Text := textHead t.length ++ t

/-- The head of a list. -/
def arrayHead (n : Nat) : Text :=
  if n < 16 then [(0x90 + n).toUInt8]
  else if n < 65536 then 0xdc :: big 2 n
  else 0xdd :: big 4 n

/-- A list of values that are already written. -/
def ofList (items : List Text) : Text := arrayHead items.length ++ items.flatten

/-- The head of a map. -/
def mapHead (n : Nat) : Text :=
  if n < 16 then [(0x80 + n).toUInt8]
  else if n < 65536 then 0xde :: big 2 n
  else 0xdf :: big 4 n

/-- A map from keys to values that are already written. -/
def ofEntries (entries : List (Text × Text)) : Text :=
  mapHead entries.length ++ entries.flatMap fun (k, v) => ofText k ++ v

/-- A sequence of fewer than 256 bytes. -/
def ofBytes (t : Text) : Text := 0xc4 :: big 1 t.length ++ t

/-- An integer of 64 bits in the shortest form. -/
def ofInt : Int → Text
  | .ofNat n =>
    if n < 128 then [n.toUInt8]
    else if n < 256 then 0xcc :: big 1 n
    else if n < 65536 then 0xcd :: big 2 n
    else if n < 4294967296 then 0xce :: big 4 n
    else 0xcf :: big 8 n
  | .negSucc n =>
    if n < 32 then [(255 - n).toUInt8]
    else if n < 128 then 0xd0 :: big 1 (255 - n)
    else if n < 32768 then 0xd1 :: big 2 (65535 - n)
    else if n < 2147483648 then 0xd2 :: big 4 (4294967295 - n)
    else 0xd3 :: big 8 (18446744073709551615 - n)

end MessagePack

end StumpGen
