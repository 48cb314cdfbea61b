/-
# Command line

The arguments of the command, and what the command does to the files.  Options may stand before
or after the sources, may be shortened, and may hold their value; the sources stand together.
-/
import PgSchema.Build
import PgSchema.Text.Digit
import PgSchema.Text.Search

namespace PgSchema

/-! ## Options -/

/-- The options of the command. -/
inductive CommandOption
  | help | output | config | mode | noFormat | timestamps | verbose
deriving DecidableEq, Repr

namespace CommandOption

/-- The options. -/
def all : List CommandOption := [help, output, config, mode, noFormat, timestamps, verbose]

/-- The long spelling of an option, after its two dashes. -/
def long : CommandOption → String
  | help => "help"
  | output => "output"
  | config => "config"
  | mode => "mode"
  | noFormat => "no-format"
  | timestamps => "timestamps"
  | verbose => "verbose"

/-- The short spelling of an option, after its dash. -/
def short? : CommandOption → Option Char
  | help => some 'h'
  | output => some 'o'
  | config => some 'c'
  | mode => some 'm'
  | noFormat => none
  | timestamps => none
  | verbose => some 'v'

/-- Holds for the options that take a value. -/
def takesValue : CommandOption → Bool
  | output | config | mode => true
  | help | noFormat | timestamps | verbose => false

/-- The option with a short spelling. -/
def ofShort? (c : Char) : Option CommandOption := all.find? fun o => o.short? == some c

/-- The option with exactly this long spelling. -/
def ofLong? (name : String) : Option CommandOption := all.find? fun o => o.long == name

/-- The options whose long spelling begins like this. -/
def ofStart (start : String) : List CommandOption :=
  all.filter fun o => Text.startsWith o.long start

end CommandOption

/-- Why the arguments are refused. -/
inductive UsageError
  | ambiguous (argument : String)
  | valueMissing (option : CommandOption)
  | valueNotTaken (option : CommandOption)
  | unknownMode (written : String)
  | sourcesMissing
  | unknown (arguments : List String)
  | outputOfSeveral
deriving DecidableEq, Repr

/-- The wording of a usage error. -/
def UsageError.message : UsageError → String
  | ambiguous argument => argument ++ " could be any of several options"
  | valueMissing option => "--" ++ option.long ++ " needs a value"
  | valueNotTaken option => "--" ++ option.long ++ " takes no value"
  | unknownMode written =>
    written ++ " is not one of " ++ ", ".intercalate (MigrationMode.all.map (·.word))
  | sourcesMissing => "definition files are required"
  | unknown arguments => "unknown arguments: " ++ " ".intercalate arguments
  | outputOfSeveral => "--output requires a single source file"

/-! ## Words -/

/-- What an argument is on its own. -/
inductive CommandWord
  /-- A source, or the value of an option before it. -/
  | plain (text : String)
  /-- The mark after which every argument is plain. -/
  | endOfOptions
  /-- An option in its long spelling, with the value after an equals sign. -/
  | long (option : CommandOption) (value : Option String)
  /-- An option in its short spelling, with what follows in the same argument. -/
  | short (option : CommandOption) (rest : List Char)
  | unknown (text : String)
deriving DecidableEq, Repr

namespace CommandWord

/-- Holds for a dash followed by a number, which one line feed may follow. -/
def isNegativeNumber (cs : List Char) : Bool :=
  match cs with
  | '-' :: rest =>
    let body := if rest.getLast? == some '\n' then rest.dropLast else rest
    let fraction := body.dropWhile Text.isDecimalDigit
    !body.isEmpty && (fraction.isEmpty ||
      match fraction with
      | '.' :: digits => !digits.isEmpty && digits.all Text.isDecimalDigit
      | _ => false)
  | _ => false

/-- An argument with a dash that spells no option: plain if it looks like a number or has a space
in it. -/
def unspelled (cs : List Char) : CommandWord :=
  if isNegativeNumber cs || cs.contains ' ' then plain (String.ofList cs)
  else unknown (String.ofList cs)

/-- A text cut at its first equals sign. -/
def cutAtEquals (cs : List Char) : String × Option String :=
  (String.ofList (cs.takeWhile (· != '=')),
   match cs.dropWhile (· != '=') with
   | _ :: value => some (String.ofList value)
   | [] => none)

/-- An argument with two dashes, given what follows them. -/
def ofLongSpelling (cs : List Char) : Except UsageError CommandWord :=
  let (name, value) := cutAtEquals cs
  match CommandOption.ofLong? name, CommandOption.ofStart name with
  | some option, _ => .ok (long option value)
  | none, [option] => .ok (long option value)
  | none, [] => .ok (unspelled ('-' :: '-' :: cs))
  | none, _ => .error (.ambiguous (String.ofList ('-' :: '-' :: cs)))

/-- An argument with one dash, given what follows it. -/
def ofShortSpelling (c : Char) (cs : List Char) : CommandWord :=
  match CommandOption.ofShort? c with
  | some option => short option cs
  | none => unspelled ('-' :: c :: cs)

/-- What an argument is. -/
def ofArgument (argument : String) : Except UsageError CommandWord :=
  match argument.toList with
  | ['-', '-'] => .ok endOfOptions
  | '-' :: '-' :: cs => ofLongSpelling cs
  | '-' :: c :: cs => .ok (ofShortSpelling c cs)
  | _ => .ok (plain argument)

/-- What the arguments are; after the end of the options all are plain. -/
def ofArguments : List String → Except UsageError (List CommandWord)
  | [] => .ok []
  | argument :: arguments => do
    match ← ofArgument argument with
    | .endOfOptions => return .endOfOptions :: arguments.map .plain
    | word => return word :: (← ofArguments arguments)

end CommandWord

/-! ## Actions -/

/-- What the words of a command line ask for, one after another. -/
inductive CommandAction
  | source (text : String)
  | endOfOptions
  | set (option : CommandOption) (value : String)
  | unknown (text : String)
  | refuse (error : UsageError)
deriving DecidableEq, Repr

/-- The options that a word spells: those complete, one that still needs a value, and letters at
the end that spell none. -/
structure Spelled where
  complete : List (CommandOption × String) := []
  waiting : Option CommandOption := none
  leftover : Option String := none

namespace Spelled

/-- An option that has no value in its own word. -/
def alone (option : CommandOption) : Spelled :=
  if option.takesValue then { waiting := some option } else { complete := [(option, "")] }

/-- The options that a letter and the rest of its word spell.  The rest is the value of an option
that takes one, without an equals sign before it; a flag may be followed by further letters. -/
def ofShort (option : CommandOption) : List Char → Except UsageError Spelled
  | [] => .ok (alone option)
  | c :: cs =>
    if option.takesValue then
      .ok { complete := [(option, String.ofList (if c == '=' then cs else c :: cs))] }
    else if c == '=' || c == '-' then .error (.valueNotTaken option)
    else
      match CommandOption.ofShort? c with
      | none =>
        .ok { complete := [(option, "")], leftover := some (String.ofList ('-' :: c :: cs)) }
      | some next => do
        let rest ← ofShort next cs
        return { rest with complete := (option, "") :: rest.complete }

/-- An option in its long spelling. -/
def ofLong (option : CommandOption) : Option String → Except UsageError Spelled
  | none => .ok (alone option)
  | some value =>
    if option.takesValue then .ok { complete := [(option, value)] }
    else .error (.valueNotTaken option)

/-- The actions of the options, the waiting one with its value. -/
def actions (s : Spelled) (value : String) : List CommandAction :=
  (s.leftover.map .unknown).toList ++ s.complete.map (fun o => .set o.1 o.2) ++
    (s.waiting.map fun o => .set o value).toList

end Spelled

namespace CommandAction

/-- The actions of words, given options that wait for the next word. -/
def ofWords (waiting : Option (Spelled × CommandOption)) :
    List CommandWord → List CommandAction
  | [] =>
    match waiting with
    | some (_, option) => [.refuse (.valueMissing option)]
    | none => []
  | word :: words =>
    let spelled (s : Except UsageError Spelled) : List CommandAction :=
      match s with
      | .error e => [.refuse e]
      | .ok s =>
        match s.waiting with
        | some option => ofWords (some (s, option)) words
        | none => s.actions "" ++ ofWords none words
    match waiting, word with
    | some (s, _), .plain value => s.actions value ++ ofWords none words
    | some (_, option), _ => [.refuse (.valueMissing option)]
    | none, .plain text => .source text :: ofWords none words
    | none, .endOfOptions => .endOfOptions :: ofWords none words
    | none, .unknown text => .unknown text :: ofWords none words
    | none, .long option value => spelled (Spelled.ofLong option value)
    | none, .short option rest => spelled (Spelled.ofShort option rest)

end CommandAction

/-! ## Arguments -/

/-- What the command is asked to do. -/
structure Arguments where
  sources : List String := []
  output : Option String := none
  config : Option String := none
  mode : Option MigrationMode := none
  noFormat : Bool := false
  timestamps : Bool := false
  verbose : Bool := false

/-- What a command line comes to. -/
inductive Command
  | help
  | build (arguments : Arguments)

namespace Arguments

/-- The arguments with an option set.  Help is no argument. -/
def set (a : Arguments) (value : String) : CommandOption → Except UsageError Arguments
  | .help => .ok a
  | .output => .ok { a with output := some value }
  | .config => .ok { a with config := some value }
  | .mode =>
    match Vocabulary.ofWord? value with
    | some mode => .ok { a with mode := some mode }
    | none => .error (.unknownMode value)
  | .noFormat => .ok { a with noFormat := true }
  | .timestamps => .ok { a with timestamps := true }
  | .verbose => .ok { a with verbose := true }

/-- The command of complete arguments. -/
def finish (a : Arguments) (unknown : List String) : Except UsageError Command :=
  if a.sources.isEmpty then .error .sourcesMissing
  else if !unknown.isEmpty then .error (.unknown unknown)
  else if a.output.isSome && 1 < a.sources.length then .error .outputOfSeveral
  else .ok (.build a)

/-- Takes actions in turn, up to one that asks for help or is refused.  The sources are closed once
something else follows them, and what is then left over is unknown. -/
def take (a : Arguments) (closed : Bool) (unknown : List String) :
    List CommandAction → Except UsageError Command
  | [] => a.finish unknown
  | action :: actions =>
    match action with
    | .refuse e => .error e
    | .source text =>
      if closed then a.take true (unknown ++ [text]) actions
      else { a with sources := a.sources ++ [text] }.take false unknown actions
    | .endOfOptions => a.take closed (if closed then unknown ++ ["--"] else unknown) actions
    | .unknown text => a.take (!a.sources.isEmpty) (unknown ++ [text]) actions
    | .set .help _ => .ok .help
    | .set option value =>
      match a.set value option with
      | .error e => .error e
      | .ok a => a.take (!a.sources.isEmpty) unknown actions

end Arguments

/-- Reads a command line. -/
def Command.ofArguments (arguments : List String) : Except UsageError Command := do
  let words ← CommandWord.ofArguments arguments
  ({} : Arguments).take false [] (CommandAction.ofWords none words)

/-! ## Running the command -/

/-- The configuration with what the arguments change. -/
def Arguments.adjust (a : Arguments) (config : Config) : Config :=
  { config with
    formats := config.formats && !a.noFormat
    addsTimestamps := config.addsTimestamps || a.timestamps
    migration := { config.migration with mode := a.mode.getD config.migration.mode } }

/-- Reads a configuration file; an empty one gives the default. -/
def FileTree.readConfig (tree : FileTree) (path : FilePath) : Except BuildError Config := do
  let content ← (tree.read path.text).mapError .file
  match content.document with
  | .null => return default
  | d => (Config.load d).orFailure.mapError .failed

/-- The configuration that the arguments ask for. -/
def Arguments.configIn (a : Arguments) (tree : FileTree) : Except BuildError Config := do
  match a.config.filter (· != "") with
  | some path => return a.adjust (← tree.readConfig (FilePath.ofText path))
  | none => return a.adjust default

/-- How a command ends. -/
inductive Ending
  | helped
  | misused (error : UsageError)
  | failed (error : BuildError)
  /-- All files were built; so many scripts were written. -/
  | built (written : Nat)

/-- The exit code of a command: a command that writes nothing fails. -/
def Ending.exitCode : Ending → Nat
  | helped => 0
  | misused _ => 2
  | failed _ => 1
  | built written => if written = 0 then 1 else 0

/-- The result of a command: the files after it, what is shown, and how it ended. -/
structure Outcome where
  tree : FileTree
  events : List Event
  ending : Ending

/-- Holds for the events that are shown: all of them, or all but details. -/
def Event.isShown (verbose : Bool) (e : Event) : Bool := verbose || e.level != .debug

/-- Builds the files that the arguments name. -/
def Arguments.run (a : Arguments) (tree : FileTree) : Outcome :=
  match a.configIn tree with
  | .error e => { tree, events := [], ending := .failed e }
  | .ok config =>
    let (tree, run) := config.buildAll a.output tree a.sources
    match run.result with
    | .error e => { tree, events := run.events.filter (·.isShown a.verbose), ending := .failed e }
    | .ok written =>
      let events := run.events ++ [.filesWritten written a.sources.length]
      { tree, events := events.filter (·.isShown a.verbose), ending := .built written }

/-- Runs a command line on files. -/
def runCommandLine (tree : FileTree) (arguments : List String) : Outcome :=
  match Command.ofArguments arguments with
  | .error e => { tree, events := [], ending := .misused e }
  | .ok .help => { tree, events := [], ending := .helped }
  | .ok (.build a) => a.run tree

end PgSchema
