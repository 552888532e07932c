import StumpGen.Text.Numeral
import StumpGen.Text.Quoted

/-!
# Flags

A flag is a named setting on the command line: `--name value` or `--name=value`, and `--name`
alone for one that is switched on.  Some flags have a letter too, and letters may be written
together after one dash.  Flags and other arguments may be mixed until an argument `--`, after
which there are no more flags.
-/

namespace StumpGen

namespace CommandLine

/-- How the value of a flag is kept in settings of type `σ`. -/
inductive Setter (σ : Type) where
  /-- A text. -/
  | text (set : σ → Text → σ)
  /-- A number. -/
  | number (set : σ → Int → σ)
  /-- Whether it is switched on. -/
  | switch (set : σ → Bool → σ)
  deriving Inhabited

/-- A setting on the command line. -/
structure Flag (σ : Type) where
  /-- Its name. -/
  name : String
  /-- Its letter, if it has one. -/
  letter : Option UInt8 := none
  /-- How its value is kept. -/
  setter : Setter σ
  /-- What it does. -/
  purpose : String
  /-- What it is when it is not given; empty if there is nothing to say. -/
  standard : String := ""
  deriving Inhabited

namespace Flag

variable {σ : Type}

/-- Whether a flag stands without a value. -/
def isSwitch (f : Flag σ) : Bool :=
  match f.setter with
  | .switch _ => true
  | _ => false

/-- The flag as it is written, with its letter in front. -/
def written (f : Flag σ) : Text :=
  match f.letter with
  | some l => "-" ++ [l] ++ ", --" ++ Text.ofString f.name
  | none => "--" ++ Text.ofString f.name

end Flag

/-! ### Errors -/

/-- Why arguments cannot be understood. -/
inductive FlagError where
  /-- An argument has dashes but no name. -/
  | malformed (argument : Text)
  /-- There is no flag with this name. -/
  | unknown (name : Text)
  /-- There is no flag with this letter. -/
  | unknownLetter (letter : UInt8) (letters : Text)
  /-- A flag has no value. -/
  | noValue (argument : Text)
  /-- A flag with a letter has no value. -/
  | noValueForLetter (letter : UInt8) (letters : Text)
  /-- The value is no number. -/
  | badNumber (value flag : Text) (fault : Numeral.Fault)
  /-- The value says neither on nor off. -/
  | badSwitch (value flag : Text)
  deriving DecidableEq, Repr, Inhabited

namespace FlagError

/-- A letter between quotes. -/
def quotedLetter (l : UInt8) : Text := Text.quotedChar (Char.ofNat l.toNat)

/-- What is wrong with a number. -/
def numberDetail : Numeral.Fault → Text
  | .malformed => "invalid syntax"
  | .overflow => "value out of range"

/-- What is said of a value that a flag cannot have. -/
def badValue (value flag detail : Text) : Text :=
  "invalid argument " ++ value.quoted ++ " for " ++ flag.quoted ++ " flag: " ++ detail

/-- The text of an error. -/
def message : FlagError → Text
  | .malformed a => "bad flag syntax: " ++ a
  | .unknown n => "unknown flag: --" ++ n
  | .unknownLetter l ls => "unknown shorthand flag: " ++ quotedLetter l ++ " in -" ++ ls
  | .noValue a => "flag needs an argument: " ++ a
  | .noValueForLetter l ls => "flag needs an argument: " ++ quotedLetter l ++ " in -" ++ ls
  | .badNumber v f e =>
    badValue v f ("strconv.ParseInt: parsing " ++ v.quoted ++ ": " ++ numberDetail e)
  | .badSwitch v f =>
    badValue v f ("strconv.ParseBool: parsing " ++ v.quoted ++ ": invalid syntax")

end FlagError

/-! ### Values -/

/-- The words for on. -/
def onWords : List Text := ["1", "t", "T", "true", "TRUE", "True"]

/-- The words for off. -/
def offWords : List Text := ["0", "f", "F", "false", "FALSE", "False"]

/-- Gives a flag a value. -/
def Flag.assign {σ : Type} (f : Flag σ) (s : σ) (value : Text) : Except FlagError σ :=
  match f.setter with
  | .text set => .ok (set s value)
  | .number set =>
    match Numeral.readAny value with
    | .ok n => .ok (set s n)
    | .error e => .error (.badNumber value f.written e)
  | .switch set =>
    if onWords.contains value then .ok (set s true)
    else if offWords.contains value then .ok (set s false)
    else .error (.badSwitch value f.written)

/-! ### Reading arguments -/

/-- What is known after some arguments. -/
structure Scan (σ : Type) where
  /-- The settings so far. -/
  settings : σ
  /-- The arguments that are no flags, the last one first. -/
  others : List Text := []
  /-- A flag that waits for its value, and what is wrong if none follows. -/
  waiting : Option (Flag σ × FlagError) := none
  /-- Whether there are no more flags. -/
  isOver : Bool := false

namespace Scan

variable {σ : Type}

/-- The dash. -/
def dash : UInt8 := 45

/-- The equals sign. -/
def equals : UInt8 := 61

/-- The flag with a name. -/
def named? (flags : List (Flag σ)) (name : Text) : Option (Flag σ) :=
  flags.find? fun f => (f.name : Text) = name

/-- A flag that has its value, or waits for it. -/
def take (sc : Scan σ) (f : Flag σ) (value : Option Text) (missing : FlagError) :
    Except FlagError (Scan σ) :=
  match value with
  | some v => return { sc with settings := ← f.assign sc.settings v }
  | none =>
    if f.isSwitch then return { sc with settings := ← f.assign sc.settings "true" }
    else return { sc with waiting := some (f, missing) }

/-- An argument that starts with two dashes, given without them. -/
def long (flags : List (Flag σ)) (sc : Scan σ) (body : Text) : Except FlagError (Scan σ) :=
  let argument := "--" ++ body
  if body.head? = some dash ∨ body.head? = some equals then .error (.malformed argument)
  else
    let name := body.takeWhile (· ≠ equals)
    let value := match body.dropWhile (· ≠ equals) with
      | [] => none
      | _ :: v => some v
    match named? flags name with
    | none => .error (.unknown name)
    | some f => sc.take f value (.noValue argument)

/-- The letters of an argument that starts with one dash. -/
def letters (flags : List (Flag σ)) (sc : Scan σ) : Text → Except FlagError (Scan σ)
  | [] => .ok sc
  | l :: rest =>
    match flags.find? (·.letter = some l) with
    | none => .error (.unknownLetter l (l :: rest))
    | some f =>
      match rest with
      | 61 :: b :: value => sc.take f (some (b :: value)) (.noValueForLetter l (l :: rest))
      | _ =>
        if f.isSwitch then do
          letters flags (← sc.take f none (.noValueForLetter l (l :: rest))) rest
        else
          sc.take f (if rest = [] then none else some rest) (.noValueForLetter l (l :: rest))

/-- One more argument. -/
def step (flags : List (Flag σ)) (sc : Scan σ) (a : Text) : Except FlagError (Scan σ) :=
  if sc.isOver then .ok { sc with others := a :: sc.others }
  else match sc.waiting with
    | some (f, _) => return { sc with settings := ← f.assign sc.settings a, waiting := none }
    | none =>
      match a with
      | 45 :: 45 :: [] => .ok { sc with isOver := true }
      | 45 :: 45 :: body => long flags sc body
      | 45 :: l :: ls => letters flags sc (l :: ls)
      | _ => .ok { sc with others := a :: sc.others }

end Scan

/-- Reads arguments: the settings that they give, and those that are no flags. -/
def parse {σ : Type} (flags : List (Flag σ)) (standard : σ) (args : List Text) :
    Except FlagError (σ × List Text) := do
  let sc ← args.foldlM (Scan.step flags) { settings := standard }
  match sc.waiting with
  | some (_, e) => .error e
  | none => return (sc.settings, sc.others.reverse)

end CommandLine

end StumpGen
