import StumpGen.Text.Case
import StumpGen.Toml.Line

/-!
# TOML tables

`Toml.parse` reads a text into a tree of tables.  A key may be defined once, with three
exceptions: a table that was only named as part of a longer key may be opened later, a list of
tables grows with each `[[…]]` line, and an array that holds no table may be given again, the
last one counting.  The keys of a text are also kept in the order of their definitions, so
that a reader can tell which of them it did not use.
-/

namespace StumpGen

namespace Toml

/-- A value in a tree of tables. -/
inductive Node where
  /-- A string. -/
  | string (text : Text)
  /-- An integer. -/
  | integer (value : Int)
  /-- A number with a fraction or an exponent. -/
  | float
  /-- A truth value. -/
  | boolean (value : Bool)
  /-- A date or time. -/
  | datetime
  /-- An array. -/
  | array (items : List Node)
  /-- A table: its keys in the order of their definitions. -/
  | table (entries : List (Text × Node))
  /-- A list of tables, the latest first. -/
  | tables (items : List (List (Text × Node)))
  deriving Repr, Inhabited

/-- The items of a node that is a list. -/
def Node.items? : Node → Option (List Node)
  | .array ns => some ns
  | .tables ts => some (ts.reverse.map .table)
  | _ => none

/-- The first of some names that a key spells: exactly, or else up to case. -/
def matchKey {α : Type} (name : α → String) (names : List α) (k : Text) : Option α :=
  (names.find? fun a => (name a : Text) = k) <|> names.find? fun a => Text.equalFold (name a) k

/-- A table: its keys in the order of their definitions. -/
abbrev Table := List (Text × Node)

namespace Table

/-- The value of a key. -/
def get? (t : Table) (k : Text) : Option Node := t.lookup k

/-- Gives a key a value, in its old place if it has one. -/
def set (t : Table) (k : Text) (v : Node) : Table :=
  if t.any (·.1 = k) then t.map fun e => if e.1 = k then (k, v) else e else t ++ [(k, v)]

/-- Changes the table at the end of a path.  Tables that are missing on the way are made, in a
list of tables the way goes through the latest, and it goes through nothing else. -/
def alter (f : Table → Option Table) : Key → Table → Option Table
  | [], t => f t
  | k :: ks, t =>
    match t.get? k with
    | none => (alter f ks []).map fun u => t.set k (.table u)
    | some (.table u) => (alter f ks u).map fun u => t.set k (.table u)
    | some (.tables (u :: us)) => (alter f ks u).map fun u => t.set k (.tables (u :: us))
    | some _ => none

/-- The value at the end of a path. -/
def find? : Key → Table → Option Node
  | [], t => some (.table t)
  | [k], t => t.get? k
  | k :: ks, t =>
    match t.get? k with
    | some (.table u) => find? ks u
    | some (.tables (u :: _)) => find? ks u
    | _ => none

/-- The shortest beginning of a path that leads to something else than tables. -/
def blocked? : Key → Table → Option Key
  | [], _ => none
  | k :: ks, t =>
    match t.get? k with
    | none => none
    | some (.table u) | some (.tables (u :: _)) => (blocked? ks u).map (k :: ·)
    | some _ => some [k]

end Table

/-- What is wrong with the lines of a text. -/
inductive Problem where
  /-- A mistake. -/
  | malformed (stop : Stop)
  /-- A conflict between keys.  The number tells the place of the latest key. -/
  | conflict (remaining : Nat) (clash : Clash)
  deriving DecidableEq, Repr, Inhabited

/-- A problem as an error of a text with these characters. -/
def Problem.error (cs : List Char) : Problem → Error
  | .malformed stop => .malformed (stop.line cs) stop.detail
  | .conflict n clash => .conflict (lineAt cs n) clash

/-- The tables built so far. -/
structure Builder where
  /-- The outermost table. -/
  root : Table := []
  /-- The tables that were named only as part of a longer key. -/
  implied : List Key := []
  /-- The keys that hold an array. -/
  arrays : List Key := []
  /-- All keys, the latest first. -/
  keys : List Key := []
  /-- The place of the latest key. -/
  place : Nat := 0
  deriving Inhabited

namespace Builder

/-- A conflict at the latest key. -/
def clash {α : Type} (b : Builder) (c : Clash) : Except Problem α := .error (.conflict b.place c)

/-- The outermost table after a step that may not be possible. -/
def replaceRoot (b : Builder) (c : Clash) : Option Table → Except Problem Builder
  | some root => .ok { b with root }
  | none => b.clash c

/-- Notes a table as named only as part of a longer key. -/
def imply (b : Builder) (k : Key) : Builder :=
  if b.implied.contains k then b else { b with implied := k :: b.implied }

/-- Notes whether a key holds an array.  Without a last part, the key is its table. -/
def setKind (b : Builder) (context : Key) (last : Text) (isArray : Bool) : Builder :=
  let k := if last ≠ [] then context ++ [last] else if context = [] then [[]] else context
  if isArray then { b with arrays := k :: b.arrays.filter (· ≠ k) }
  else { b with arrays := b.arrays.filter (· ≠ k) }

/-- Gives the key `last` of the table `context` a value, if it may have one. -/
def assign (b : Builder) (context : Key) (last : Text) (v : Node) : Except Problem Builder :=
  let k := context ++ [last]
  let store (b : Builder) : Except Problem Builder :=
    b.replaceRoot (.defined k) (b.root.alter (fun t => some (t.set last v)) context)
  match b.root.blocked? context with
  | some w => b.clash (.defined w)
  | none =>
    if (b.root.find? k).isNone then store b
    else if b.arrays.contains k then store { b with implied := b.implied.filter (· ≠ k) }
    else if b.implied.contains k then .ok { b with implied := b.implied.filter (· ≠ k) }
    else b.clash (.defined k)

/-- The ways to a key from the outside, without the key itself. -/
def ways (k : Key) : List Key := (List.range (k.length - 1)).map fun i => k.take (i + 1)

/-- Opens a table, or a further table of a list. -/
def openTable (b : Builder) (k : Key) (isItem : Bool) : Except Problem Builder := do
  let context := k.dropLast
  let last := k.getLast?.getD []
  let missing := (ways k).filter fun w => (b.root.find? w).isNone
  let b := missing.foldl imply b
  if let some w := b.root.blocked? context then b.clash (.notTable w)
  else if isItem then
    let extend (t : Table) : Option Table :=
      match t.get? last with
      | none => some (t.set last (.tables [[]]))
      | some (.tables us) => some (t.set last (.tables ([] :: us)))
      | some _ => none
    b.replaceRoot (.notList k) (b.root.alter extend context)
  else
    let b ← b.replaceRoot (.notTable context) (b.root.alter some context)
    b.assign context last (.table [])

/-- Opens the tables that the leading parts of a key name, one in the other. -/
def openParts (b : Builder) (context : Key) : Key → Except Problem Builder
  | [] => .ok b
  | p :: ps => do
    let b ← (b.imply (context ++ [p])).openTable (context ++ [p]) false
    b.openParts (context ++ [p]) ps

mutual

/-- A value under the key `last` of the table `context`.  A table in braces is entered key by
key, so that it can be seen at once; `inArray` says that it is an item of an array. -/
def value (context : Key) (last : Text) (inArray : Bool) (b : Builder) :
    Value → Except Problem (Builder × Node)
  | .string t => .ok (b, .string t)
  | .integer n => .ok (b, .integer n)
  | .float => .ok (b, .float)
  | .boolean v => .ok (b, .boolean v)
  | .datetime => .ok (b, .datetime)
  | .array vs => do
    let (b, ns) ← items context last (b.setKind context last true) vs
    pure (b, .array ns)
  | .inline es => do
    let b ← (b.imply (context ++ [last])).openTable (context ++ [last]) inArray
    let (b, t) ← entries (context ++ [last]) b [] es
    pure (b, .table t)
  | .broken stop => .error (.malformed stop)

/-- The items of an array. -/
def items (context : Key) (last : Text) (b : Builder) :
    List Value → Except Problem (Builder × List Node)
  | [] => .ok (b, [])
  | v :: vs => do
    let (b, n) ← value context last true b v
    let (b, ns) ← items context last b vs
    pure (b, n :: ns)

/-- The definitions of a table in braces.  They are also collected in `own`, under the last
part of their keys alone; that is what an array holds. -/
def entries (context : Key) (b : Builder) (own : Table) :
    List (Key × Nat × Value) → Except Problem (Builder × Table)
  | [] => .ok (b, own)
  | (k, place, v) :: es => do
    let last := k.getLast?.getD []
    let inner := context ++ k.dropLast
    let b ← { b with place }.openParts context k.dropLast
    let (b, n) ← value inner last false { b with keys := (inner ++ [last]) :: b.keys } v
    let b ← b.assign inner last n
    let b := b.setKind inner last (v matches .array _)
    entries context b (own.set last n) es

end

/-- Defines a key of the table `context`. -/
def define (b : Builder) (context k : Key) (v : Value) : Except Problem Builder := do
  let last := k.getLast?.getD []
  let inner := context ++ k.dropLast
  let b ← b.openParts context k.dropLast
  let (b, n) ← value inner last false { b with keys := (inner ++ [last]) :: b.keys } v
  let b ← b.assign inner last n
  pure (b.setKind inner last (v matches .array _))

/-- Opens a table for the lines that follow. -/
def enter (b : Builder) (k : Key) (isItem : Bool) : Except Problem Builder := do
  let b ← b.openTable k isItem
  pure ({ b with keys := k :: b.keys }.setKind k [] false)

/-- Adds lines to the tables, the first within the table `context`. -/
def add (b : Builder) (context : Key) : List Line → Except Problem Builder
  | [] => .ok b
  | .table k place :: ls => do
    let b ← { b with place }.enter k false
    b.add k ls
  | .item k place :: ls => do
    let b ← { b with place }.enter k true
    b.add k ls
  | .define k place v :: ls => do
    let b ← { b with place }.define context k v
    b.add context ls
  | .broken stop :: _ => .error (.malformed stop)

end Builder

/-- A text as a tree of tables. -/
structure Parsed where
  /-- The outermost table. -/
  root : Table
  /-- All keys in the order of their definitions. -/
  keys : List Key
  deriving Inhabited

/-- Reads a text as a tree of tables. -/
def parse (t : Text) : Except Error Parsed :=
  let t := dropMark t
  if isWide t then .error (.malformed 1 wideMessage)
  else
    let cs := characters t.runes
    match ({} : Builder).add [] (read cs) with
    | .error p => .error (p.error cs)
    | .ok b => .ok { root := b.root, keys := b.keys.reverse }

end Toml

end StumpGen
