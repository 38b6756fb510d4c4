import ModifierToggle.CommandLine.Flag

set_option autoImplicit false

/-! # Requests

The first word among the arguments names a command; flags may stand before it. Looking for that
word, an argument with a dash is taken for a flag with a value behind it, unless it is known to be a
switch or has its value in it. The command's own flags are only known once the command is. -/

namespace ModifierToggle

/-- The commands. -/
inductive Command where
  | menu
  | apply
  | languages
  deriving Repr, DecidableEq

namespace Command

/-- The name of the program. -/
def program : Text := utf8 "modgen"

/-- The name of a command. -/
def name : Command → Text
  | .menu => utf8 "menu"
  | .apply => utf8 "apply"
  | .languages => utf8 "languages"

/-- The commands, in the order in which they are suggested. -/
def all : List Command := [.menu, .apply, .languages]

/-- The commands that are there for convenience: they explain the program. -/
def explaining : List Text := [utf8 "help", utf8 "completion", utf8 "raw-version"]

/-- Whether a word is the name of a command. -/
def isName (word : Text) : Bool := (all.map name).contains word || explaining.contains word

/-- The shells that can be taught to complete commands. -/
def shells : List Text := [utf8 "bash", utf8 "zsh", utf8 "fish", utf8 "powershell"]

/-- The names that are suggested for a word that is no command. -/
def suggested : List Text := all.map name ++ [utf8 "completion"]

/-! ## Flags -/

/-- The flags of every command. -/
def commonFlags : List Flag :=
  [{ name := utf8 "debug", kind := .switch }, { name := utf8 "config", letter := some 0x63 }]

/-- The flag that asks for an explanation. -/
def helpFlag : Flag := { name := utf8 "help", letter := some 0x68, kind := .switch }

/-- The flag of the program itself that asks for its version. -/
def versionFlag : Flag := { name := utf8 "version", letter := some 0x76, kind := .switch }

/-- The flag that asks for completions without descriptions. -/
def plainFlag : Flag := { name := utf8 "no-descriptions", kind := .switch }

/-- The flags that open a session. -/
def sessionFlags : List Flag :=
  [{ name := utf8 "file", letter := some 0x66 }, { name := utf8 "outline", letter := some 0x6F },
   { name := utf8 "pos", letter := some 0x70 }, { name := utf8 "language" }]

/-- The flags of a command. -/
def flags : Command → List Flag
  | .menu => commonFlags ++ sessionFlags
  | .apply =>
    commonFlags ++ sessionFlags
      ++ [{ name := utf8 "select", letter := some 0x73, kind := .number },
          { name := utf8 "label", letter := some 0x6C },
          { name := utf8 "write", letter := some 0x77, kind := .switch }]
  | .languages => commonFlags

/-- The flags without which a command does not run, in alphabetical order. -/
def required : Command → List Text
  | .menu => [utf8 "file", utf8 "outline", utf8 "pos"]
  | .apply => [utf8 "file", utf8 "outline", utf8 "pos"]
  | .languages => []

/-! ## Finding the command -/

/-- Whether an argument looks like a flag whose value is the next argument. -/
def takesNext (flags : List Flag) (argument : Text) : Bool :=
  let isSwitch (p : Flag → Bool) : Bool := (flags.find? p).any (·.kind = .switch)
  !argument.contains 0x3D
    && (((utf8 "--").isPrefixOf argument && !isSwitch (·.name == argument.drop 2))
      || (argument.length == 2 && argument.head? == some Byte.minus
        && !isSwitch (·.letter == argument[1]?)))

/-- The words among the arguments, up to `--`. A flag that takes the next argument ends the search
    when at most one argument is left. -/
def words (flags : List Flag) : List Text → List Text
  | [] => []
  | argument :: rest =>
    if argument == utf8 "--" then []
    else if takesNext flags argument then
      match rest with
      | _ :: next :: rest => words flags (next :: rest)
      | _ => []
    else if !argument.isEmpty && argument.head? != some Byte.minus then
      argument :: words flags rest
    else words flags rest

/-- The arguments without the first one that is a given word. -/
def without (flags : List Flag) (word : Text) : List Text → List Text
  | [] => []
  | argument :: rest =>
    if argument == utf8 "--" then argument :: rest
    else if takesNext flags argument then
      match rest with
      | value :: rest => argument :: value :: without flags word rest
      | [] => [argument]
    else if argument == word then rest
    else argument :: without flags word rest

/-- The number of single byte edits between two texts. -/
def editDistance (s t : Text) : Nat :=
  let row := t.foldl (fun (row : List Nat) b =>
    let step := s.foldl (fun (acc : List Nat × Nat × List Nat) a =>
      let (done, diagonal, above) := acc
      let up := above.headD 0
      let left := done.getLastD 0
      let here := if a == b then diagonal else min (min up left) diagonal + 1
      (done ++ [here], up, above.drop 1)) ([row.headD 0 + 1], row.headD 0, row.drop 1)
    step.1) (List.range (s.length + 1))
  row.getLastD 0

/-- The names that someone may have meant by a word: those at most two edits away, or that start
    with it. Case does not matter. -/
def suggestions (word : Text) : List Text :=
  suggested.filter fun name =>
    editDistance word.lower name ≤ 2 || word.lower.isPrefixOf name

end Command

/-! ## Requests -/

/-- What a user asks for. -/
inductive Request where
  | run (command : Command) (given : Flag.Given)
  | explain
  /-- An explanation of something that is no command; there is none. -/
  | unknownTopic
  deriving Repr, DecidableEq

/-- Why arguments ask for nothing. -/
inductive RequestError where
  | unknownCommand (word : Text)
  /-- A word behind a shell, where none may stand. -/
  | extraWord (word shell : Text)
  | flag (cause : FlagError)
  | missing (names : List Text)
  deriving Repr, DecidableEq

/-- The wording of the error. -/
def RequestError.message : RequestError → Text
  | .unknownCommand word =>
    let found := Command.suggestions word
    utf8 "unknown command " ++ word.quoted ++ utf8 " for " ++ Command.program.quoted
      ++ if found.isEmpty then []
        else utf8 "\n\nDid you mean this?\n"
          ++ found.flatMap fun name => utf8 "\t" ++ name ++ utf8 "\n"
  | .extraWord word shell =>
    utf8 "unknown command " ++ word.quoted ++ utf8 " for "
      ++ (Command.program ++ utf8 " completion " ++ shell).quoted
  | .flag cause => cause.message
  | .missing names =>
    utf8 "required flag(s) \"" ++ Text.join (utf8 "\", \"") names ++ utf8 "\" not set"

namespace Request

/-- Read the flags of a command, and go on with what is given unless that asks for an
    explanation. -/
def withFlags (flags : List Flag) (arguments : List Text)
    (next : Flag.Given → Except RequestError Request) : Except RequestError Request :=
  match Flag.readAll (flags ++ [Command.helpFlag]) {} arguments with
  | .error cause => .error (.flag cause)
  | .ok given => if given.switch "help" then .ok .explain else next given

/-- Read the arguments of a command. -/
def ofCommand (command : Command) (arguments : List Text) : Except RequestError Request :=
  withFlags command.flags arguments fun given =>
    let missing := command.required.filter (!given.has ·)
    if missing.isEmpty then .ok (.run command given) else .error (.missing missing)

/-- Read the arguments of the command that explains another. -/
def ofHelp (arguments : List Text) : Except RequestError Request :=
  withFlags Command.commonFlags arguments fun given =>
    .ok (if (Command.words Command.commonFlags given.words).head?.all Command.isName then .explain
      else .unknownTopic)

/-- Read the arguments of the command that teaches a shell to complete commands. -/
def ofCompletion (arguments : List Text) : Except RequestError Request :=
  match (Command.words Command.commonFlags arguments).head?.filter Command.shells.contains with
  | none => withFlags Command.commonFlags arguments fun _ => .ok .explain
  | some shell =>
    withFlags (Command.commonFlags ++ [Command.plainFlag])
        (Command.without Command.commonFlags shell arguments) fun given =>
      match given.words with
      | [] => .ok .explain
      | word :: _ => .error (.extraWord word shell)

/-- Read the arguments of the program. -/
def ofArguments (arguments : List Text) : Except RequestError Request :=
  match Command.words Command.commonFlags arguments with
  | [] => withFlags (Command.commonFlags ++ [Command.versionFlag]) arguments fun _ => .ok .explain
  | word :: _ =>
    let rest := Command.without Command.commonFlags word arguments
    match Command.all.find? (·.name == word) with
    | some command => ofCommand command rest
    | none =>
      if word == utf8 "help" then ofHelp rest
      else if word == utf8 "completion" then ofCompletion rest
      else if word == utf8 "raw-version" then
        withFlags Command.commonFlags rest fun _ => .ok .explain
      else .error (.unknownCommand word)

end Request

end ModifierToggle
