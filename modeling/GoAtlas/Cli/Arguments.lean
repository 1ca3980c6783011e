import GoAtlas.Text.Split

/-!
# Command-line arguments

General options may stand before the command and after it, and what is given after it counts.
Within one of these places an option that takes no list is given at most once.
-/

namespace GoAtlas
namespace Cli

/-! # Options -/

inductive Operand where
  | nothing
  | text
  /-- A text that is not empty. -/
  | path
  /-- A text, each time the option is given. -/
  | texts
  deriving Repr, DecidableEq

structure Switch where
  long : String
  short : Option Char
  operand : Operand

def general : List Switch :=
  [⟨"verbose", some 'v', .nothing⟩, ⟨"json", none, .nothing⟩, ⟨"config", none, .path⟩,
    ⟨"workspace", none, .path⟩, ⟨"system-root", none, .path⟩, ⟨"tests", none, .nothing⟩,
    ⟨"strict", none, .nothing⟩]

structure CommandForm where
  name : String
  switches : List Switch
  /-- Any number of arguments but none, if there is no limit. -/
  limit : Option Nat

def commands : List CommandForm :=
  [⟨"resolve", [], none⟩, ⟨"implementers", [⟨"package", some 'p', .texts⟩], some 1⟩,
    ⟨"consts", [⟨"unexported", none, .nothing⟩], some 1⟩, ⟨"walk", [], some 1⟩,
    ⟨"source", [], some 1⟩, ⟨"doc", [⟨"field", some 'f', .text⟩], some 1⟩,
    ⟨"init", [⟨"path", some 'p', .path⟩, ⟨"force", none, .nothing⟩], some 0⟩]

/-! # Results -/

/-- Why arguments cannot be used. -/
inductive Misuse where
  | unexpected (argument : String)
  | missingValue (option : String)
  | extraValue (option : String)
  | emptyValue (option : String)
  | repeated (option : String)
  | noCommand
  | unknownCommand (name : String)
  | missingArgument (command : String)
  deriving Repr, DecidableEq

namespace Misuse

def message : Misuse -> String
  | unexpected argument => "error: unexpected argument '" ++ argument ++ "' found"
  | missingValue option =>
      "error: a value is required for '--" ++ option ++ "' but none was supplied"
  | extraValue option => "error: unexpected value for '--" ++ option ++ "' found"
  | emptyValue option => "error: a value is required for '--" ++ option ++ "' but none was supplied"
  | repeated option => "error: the argument '--" ++ option ++ "' cannot be used multiple times"
  | noCommand => "error: a command is required but one was not provided"
  | unknownCommand name => "error: unrecognized command '" ++ name ++ "'"
  | missingArgument command =>
      "error: the required arguments of '" ++ command ++ "' were not provided"

end Misuse

/-- Why reading the arguments ended early. -/
inductive Stop where
  | misuse (cause : Misuse)
  | help
  | version
  deriving Repr, DecidableEq

/-- Options in the order they were given, by their long names. -/
abbrev Given := List (String × String)

namespace Given

def has (g : Given) (option : String) : Bool :=
  (g.lookup option).isSome

def all (g : Given) (option : String) : List String :=
  (g.filter fun p => p.1 == option).map (·.2)

end Given

/-! # Reading one place -/

structure Place where
  switches : List Switch
  hasVersion : Bool

def misuse {α : Type} (cause : Misuse) : Except Stop α :=
  .error (.misuse cause)

def record (given : Given) (s : Switch) (value : String) : Except Stop Given :=
  if s.operand != .texts && given.has s.long then misuse (.repeated s.long)
  else if s.operand == .path && value == "" then misuse (.emptyValue s.long)
  else .ok (given ++ [(s.long, value)])

def isValue (argument : String) : Bool :=
  !Text.startsWith argument "-" || argument == "-"

def valueFrom (s : Switch) : List String -> Except Stop (String × List String)
  | [] => misuse (.missingValue s.long)
  | argument :: rest =>
      if isValue argument then .ok (argument, rest) else misuse (.missingValue s.long)

def longOption (p : Place) (given : Given) (body : String) (rest : List String) :
    Except Stop (Given × List String) := do
  let (name, value) :=
    match Text.cutFirst? '=' body.toList with
    | some (name, value) => (String.ofList name, some (String.ofList value))
    | none => (body, none)
  match p.switches.find? fun s => s.long == name with
  | none =>
      if name == "help" && value.isNone then throw .help
      else if name == "version" && value.isNone && p.hasVersion then throw .version
      else misuse (.unexpected ("--" ++ name))
  | some s =>
      match s.operand, value with
      | .nothing, none => return (← record given s "", rest)
      | .nothing, some _ => misuse (.extraValue s.long)
      | _, some value => return (← record given s value, rest)
      | _, none =>
          let (value, rest) ← valueFrom s rest
          return (← record given s value, rest)

def shortOptions (p : Place) (given : Given) (rest : List String) :
    List Char -> Except Stop (Given × List String)
  | [] => .ok (given, rest)
  | c :: more => do
      match p.switches.find? fun s => s.short == some c with
      | none =>
          if c == 'h' then throw .help
          else if c == 'V' && p.hasVersion then throw .version
          else misuse (.unexpected (String.ofList ['-', c]))
      | some s =>
          match s.operand, more with
          | .nothing, _ => shortOptions p (← record given s "") rest more
          | _, [] =>
              let (value, rest) ← valueFrom s rest
              return (← record given s value, rest)
          | _, '=' :: value => return (← record given s (String.ofList value), rest)
          | _, value => return (← record given s (String.ofList value), rest)

/-- Reads options up to the first argument that is none. The dashes that end options are an
argument here. -/
def optionsWithin (p : Place) : Nat -> Given -> List String -> Except Stop (Given × List String)
  | 0, given, rest => .ok (given, rest)
  | _ + 1, given, [] => .ok (given, [])
  | fuel + 1, given, argument :: rest => do
      match argument.toList with
      | ['-', '-'] => return (given, argument :: rest)
      | '-' :: '-' :: body =>
          let (given, rest) ← longOption p given (String.ofList body) rest
          optionsWithin p fuel given rest
      | '-' :: c :: more =>
          let (given, rest) ← shortOptions p given rest (c :: more)
          optionsWithin p fuel given rest
      | _ => return (given, argument :: rest)

def options (p : Place) (given : Given) (arguments : List String) :
    Except Stop (Given × List String) :=
  optionsWithin p arguments.length given arguments

/-! # Commands -/

def accept (form : CommandForm) (words : List String) (word : String) :
    Except Stop (List String) :=
  match form.limit with
  | none => .ok (words ++ [word])
  | some limit =>
      if words.length < limit then .ok (words ++ [word]) else misuse (.unexpected word)

def commandWithin (form : CommandForm) (p : Place) :
    Nat -> Given -> List String -> List String -> Except Stop (Given × List String)
  | 0, given, words, _ => .ok (given, words)
  | fuel + 1, given, words, arguments => do
      match ← options p given arguments with
      | (given, []) => return (given, words)
      | (given, "--" :: rest) => return (given, ← rest.foldlM (accept form) words)
      | (given, word :: rest) => commandWithin form p fuel given (← accept form words word) rest

/-- What the arguments ask for: a command, the options before and after it, and its words. -/
structure Call where
  command : String
  before : Given
  after : Given
  words : List String

namespace Call

def has (c : Call) (option : String) : Bool :=
  c.before.has option || c.after.has option

def value? (c : Call) (option : String) : Option String :=
  (c.after.lookup option).or (c.before.lookup option)

end Call

def readCommand (before : Given) (name : String) (rest : List String) : Except Stop Call := do
  match commands.find? fun form => form.name == name with
  | none =>
      if name == "help" && rest.all fun word => commands.any fun form => form.name == word then
        throw .help
      else misuse (.unknownCommand name)
  | some form =>
      let place : Place := ⟨form.switches ++ general, false⟩
      let (after, words) ← commandWithin form place (rest.length + 1) [] [] rest
      if words.isEmpty && form.limit != some 0 then misuse (.missingArgument name)
      else return ⟨name, before, after, words⟩

def read (arguments : List String) : Except Stop Call := do
  match ← options ⟨general, true⟩ [] arguments with
  | (_, []) => misuse .noCommand
  | (_, "--" :: word :: _) => misuse (.unexpected word)
  | (_, ["--"]) => misuse .noCommand
  | (before, name :: rest) => readCommand before name rest

end Cli
end GoAtlas
