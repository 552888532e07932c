import StumpGen.CommandLine.Settings

/-!
# Commands

The first argument that is no flag and names a command chooses it; without one, the program
compiles one unit.  Each command has flags of its own and those that all commands share, and a
text that explains them.
-/

namespace StumpGen

namespace CommandLine

/-- What the program is asked to do. -/
inductive Command where
  /-- Compile one unit. -/
  | compile
  /-- Build a project. -/
  | build
  /-- Set up a shell. -/
  | completion
  /-- Explain a command. -/
  | help
  /-- Change the format of a document. -/
  | pack
  /-- Show the version. -/
  | version
  deriving DecidableEq, Repr, Inhabited

namespace Command

/-- The name of the program. -/
def program : String := "fstump"

/-- The commands with a name, in order. -/
def named : List Command := [.build, .completion, .help, .pack, .version]

/-- The name of a command. -/
def name : Command → String
  | .compile => program
  | .build => "build"
  | .completion => "completion"
  | .help => "help"
  | .pack => "pack"
  | .version => "version"

/-- What a command does, in one line. -/
def purpose : Command → String
  | .compile => "FStump code generator for the stump target"
  | .build => "Build every unit of an fstump project"
  | .completion => "Generate the autocompletion script for the specified shell"
  | .help => "Help about any command"
  | .pack => "Convert a program between TOML and MessagePack"
  | .version => "Show fstump build information"

/-- What a command does, in full. -/
def explanation : Command → String
  | .compile =>
    "fstump lowers a structured program (TOML or MessagePack interchange file)
to stump assembly and reports how much of the instruction memory it uses."
  | .build =>
    "Build every unit listed in fstump.toml. The manifest is looked up from dir " ++
      "(default: current directory) upwards."
  | .completion =>
    "Generate the autocompletion script for fstump for the specified shell.
See each sub-command's help for details on how to use the generated script."
  | .help =>
    "Help provides help for any command in the application.
Simply type fstump help [path to command] for full details."
  | .pack =>
    "Convert an interchange file. Formats are picked from the extensions
(.toml, .mp, .msgpack); the program is validated before it is written."
  | .version => "Show fstump build information"

/-- How a command is called. -/
def call : Command → String
  | .compile => "fstump <input> <output> [flags]"
  | .build => "fstump build [flags] [dir]"
  | .completion => "fstump completion [command]"
  | .help => "fstump help [command] [flags]"
  | .pack => "fstump pack <in> <out> [flags]"
  | .version => "fstump version [flags]"

/-- The flags of a command that other commands do not share. -/
def ownFlags : Command → List (Flag Settings)
  | .compile => Settings.compileFlags
  | .build => Settings.buildFlags
  | .version => Settings.versionFlags
  | _ => []

/-- All flags of a command.  Of two with one name, the first one counts. -/
def flags (c : Command) : List (Flag Settings) :=
  c.ownFlags ++ [Settings.helpFlag c.name]
    ++ (if c = .compile then [Settings.versionFlag c.name] else [])
    ++ Settings.sharedFlags

/-! ### The choice of a command -/

/-- The flags that are known before a command is chosen. -/
def earlyFlags : List (Flag Settings) := Settings.compileFlags ++ Settings.sharedFlags

/-- Whether the argument after this one belongs to it.  A flag that is not known counts as one
that takes a value. -/
def takesNext : Text → Bool
  | 45 :: 45 :: body =>
    !body.contains Scan.equals
      && !((Scan.named? earlyFlags body).map Flag.isSwitch).getD false
  | [45, l] => l != Scan.equals
  | _ => false

/-- The first argument that is no flag and no flag's value; `skip` says that the next one is a
value.  A flag that may take the last argument ends the search. -/
def firstWord (skip : Bool) : List Text → Option Text
  | [] => none
  | a :: rest =>
    if skip then firstWord false rest
    else if a = "--" then none
    else if takesNext a then (if rest.length ≤ 1 then none else firstWord true rest)
    else if a ≠ [] ∧ a.head? ≠ some Scan.dash then some a
    else firstWord false rest

/-- The arguments without the first one that is `word`, where it is no flag's value. -/
def dropWord (word : Text) (skip : Bool) : List Text → List Text
  | [] => []
  | a :: rest =>
    if skip then a :: dropWord word false rest
    else if a = "--" then a :: rest
    else if takesNext a then a :: dropWord word true rest
    else if a = word then rest
    else a :: dropWord word false rest

/-- The command with a name. -/
def named? (word : Text) : Option Command := named.find? fun c => (c.name : Text) = word

/-- The command that the arguments choose, and the other arguments. -/
def choose (args : List Text) : Command × List Text :=
  match firstWord false args with
  | none => (.compile, args)
  | some word =>
    match named? word with
    | none => (.compile, args)
    | some c => (c, dropWord word false args)

/-! ### Explanations -/

/-- The kind of value that a flag takes. -/
def valueKind (f : Flag Settings) : Text :=
  match f.setter with
  | .text _ => " string"
  | .number _ => " int"
  | .switch _ => []

/-- A flag in the first column. -/
def flagColumn (f : Flag Settings) : Text :=
  (if f.letter.isSome then "  " else "      ") ++ f.written ++ valueKind f

/-- What a flag is when it is not given. -/
def standardText (f : Flag Settings) : Text :=
  if f.standard = "" then []
  else match f.setter with
    | .text _ => " (default " ++ Text.quoted f.standard ++ ")"
    | _ => " (default " ++ Text.ofString f.standard ++ ")"

/-- A line for each flag, by name, in two columns. -/
def flagLines (flags : List (Flag Settings)) : Text :=
  let sorted := flags.mergeSort fun f g => decide ((f.name : Text) ≤ (g.name : Text))
  let width := (sorted.map fun f => (flagColumn f).length).foldl max 0
  sorted.flatMap fun f =>
    Text.padRight (width + 3) (flagColumn f) ++ Text.ofString f.purpose ++ standardText f
      ++ Text.newline

/-- A heading and the lines below it, with a blank line in front. -/
def block (heading lines : Text) : Text := Text.newline ++ heading ++ Text.newline ++ lines

/-- The commands that belong to a command, with what they do. -/
def inner : Command → List (String × String)
  | .compile => named.map fun c => (c.name, c.purpose)
  | .completion =>
    ["bash", "fish", "powershell", "zsh"].map fun shell =>
      (shell, "Generate the autocompletion script for " ++ shell)
  | _ => []

/-- The lines for the commands that belong to a command. -/
def innerLines (c : Command) : Text :=
  c.inner.flatMap fun (n, what) =>
    "  " ++ Text.padRight 11 (Text.ofString n) ++ " " ++ Text.ofString what ++ Text.newline

/-- The command as it is called to reach the commands that belong to it. -/
def path (c : Command) : Text := if c = .compile then program else program ++ " " ++ c.name

/-- How a command is called, the commands that belong to it, and its flags. -/
def usage (c : Command) : Text :=
  let hasInner := c.inner ≠ []
  let called := "  " ++ Text.ofString c.call ++ Text.newline
  let innerCall : Text :=
    if c = .compile then "  " ++ c.path ++ " [command]" ++ Text.newline else []
  let commands : Text := if hasInner then block "Available Commands:" c.innerLines else []
  let own := c.ownFlags ++ [Settings.helpFlag c.name]
  let flags : Text :=
    if c = .compile then block "Flags:" (flagLines c.flags)
    else
      let shared := Settings.sharedFlags.filter fun f => own.all (·.name ≠ f.name)
      block "Flags:" (flagLines own) ++ block "Global Flags:" (flagLines shared)
  let more : Text :=
    if hasInner then
      Text.newline ++ "Use \"" ++ c.path
        ++ " [command] --help\" for more information about a command." ++ Text.newline
    else []
  "Usage:" ++ Text.newline ++ called ++ innerCall ++ commands ++ flags ++ more

/-- What a command does, and how it is called. -/
def helpText (c : Command) : Text :=
  Text.ofString c.explanation ++ Text.newline ++ Text.newline ++ c.usage

end Command

end CommandLine

end StumpGen
