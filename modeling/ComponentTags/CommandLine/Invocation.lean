import ComponentTags.CommandLine.Word

/-!
# Invocations

What a command line asks for. Words are read from left to right; asking for help or for the version ends
the reading, so that faults behind it do not count. A shortened option that is ambiguous is a fault
wherever it stands, for the options in front of a command even if it stands behind the command.
-/

namespace ComponentTags.CommandLine

/-- An option in use, with its value if it takes one. -/
structure Use where
  key : OptionKey
  value : Option String
  deriving DecidableEq, Repr

/-- The value in a text that is attached to an option. Two dashes alone stand for the empty one. -/
def attachedValue (s : List Char) : String :=
  if s = ['-', '-'] then "" else String.ofList s

/-- Reads the text joined to an option. The text is the option's value or, behind a switch, the letters of
further options, of which the last one may have no text left for its value and is given apart. -/
def Grammar.cluster (g : Grammar) (rule : OptionRule) :
    List Char → Except UsageFault (List Use × Option OptionRule)
  | [] =>
    if rule.takesValue then .ok ([⟨rule.key, some ""⟩], none) else .error (.unusedText rule "")
  | c :: more =>
    if rule.takesValue then .ok ([⟨rule.key, some (attachedValue (c :: more))⟩], none)
    else
      match g.rule? (String.ofList ['-', c]) with
      | none => .error (.unusedText rule (String.ofList (c :: more)))
      | some next =>
        let others : Except UsageFault (List Use × Option OptionRule) :=
          match more with
          | [] => .ok ([], some next)
          | d :: more => cluster g next (d :: more)
        others.map fun (uses, last) => (⟨rule.key, none⟩ :: uses, last)

/-- Reads a word with an option: the options in use and the one that has no text in the word, if there is
one. -/
def Grammar.uses (g : Grammar) (rule : OptionRule) :
    Attached → Except UsageFault (List Use × Option OptionRule)
  | .nothing => .ok ([], some rule)
  | .joined text => g.cluster rule text.toList
  | .assigned text =>
    if rule.takesValue then .ok ([⟨rule.key, some (attachedValue text.toList)⟩], none)
    else .error (.unusedText rule text)

/-- What was read: the options in use, the argument, the words that nothing asked for, and the fault that
ended the reading early. -/
structure Reading where
  uses : List Use := []
  argument : Option String := none
  extras : List String := []
  fault : Option UsageFault := none

namespace Reading

def withUses (uses : List Use) (r : Reading) : Reading :=
  { r with uses := uses ++ r.uses }

def withExtra (text : String) (r : Reading) : Reading :=
  { r with extras := text :: r.extras }

def ofFault (fault : UsageFault) : Reading :=
  { fault := some fault }

/-- The option among those in use that ends the reading. -/
def halt? (r : Reading) : Option OptionKey :=
  (r.uses.map (·.key)).find? fun key => key == .help || key == .version

def has (r : Reading) (key : OptionKey) : Bool :=
  r.uses.any (·.key == key)

/-- The last value of an option. -/
def value? (r : Reading) (key : OptionKey) : Option String :=
  (r.uses.reverse.find? (·.key == key)).bind (·.value)

end Reading

/-- Reads the words behind a command. The first argument is taken if one is `wanted`, together with a
separator around it; all others are extras. -/
def Grammar.read (g : Grammar) (wanted : Bool) : List Word → Reading
  | [] => {}
  | word :: rest =>
    match word.role with
    | .unknownOption => .withExtra word.text (g.read wanted rest)
    | .argument =>
      if wanted then
        match rest with
        | ⟨_, .separator⟩ :: rest => { g.read false rest with argument := some word.text }
        | rest => { g.read false rest with argument := some word.text }
      else .withExtra word.text (g.read false rest)
    | .separator =>
      if wanted then
        match rest with
        | ⟨text, .argument⟩ :: rest => { g.read false rest with argument := some text }
        | rest => g.read false rest
      else .withExtra word.text (g.read false rest)
    | .option rule attached =>
      match g.uses rule attached with
      | .error fault => .ofFault fault
      | .ok (uses, none) => .withUses uses (g.read wanted rest)
      | .ok (uses, some rule) =>
        if rule.takesValue then
          match rest with
          | ⟨value, .argument⟩ :: rest =>
            .withUses (uses ++ [⟨rule.key, some value⟩]) (g.read wanted rest)
          | _ => .ofFault (.missingValue rule)
        else .withUses (uses ++ [⟨rule.key, none⟩]) (g.read wanted rest)

/-- Reads the words in front of a command, which are switches, and gives the command's name and the words
behind it. A separator in front of further words stands in the command's place. -/
def Grammar.readCommand (g : Grammar) : List Word → Reading × List String
  | [] => ({}, [])
  | word :: rest =>
    match word.role with
    | .unknownOption =>
      let (reading, behind) := g.readCommand rest
      (.withExtra word.text reading, behind)
    | .argument => ({ argument := some word.text }, rest.map (·.text))
    | .separator =>
      if rest.isEmpty then (.withExtra word.text {}, [])
      else ({ argument := some word.text }, rest.map (·.text))
    | .option rule attached =>
      match g.uses rule attached with
      | .error fault => (.ofFault fault, [])
      | .ok (uses, last) =>
        let (reading, behind) := g.readCommand rest
        let others := last.toList.map fun rule => ⟨rule.key, none⟩
        (.withUses (uses ++ others) reading, behind)

/-- The options that both commands share. -/
structure SharedOptions where
  settingsFile : Option String
  tagPrefix : Option String
  json : Bool
  deriving DecidableEq, Repr

/-- What a command is to do. -/
inductive Request where
  | compile (source : String) (output : Option String) (report : Bool) (shared : SharedOptions)
  | components (shared : SharedOptions)
  deriving DecidableEq, Repr

def Request.command : Request → Command
  | compile .. => .compile
  | components _ => .components

/-- What a command line asks for. -/
inductive Invocation where
  | help (command : Option Command)
  | version
  | refused (program : String) (fault : UsageFault)
  | run (verbose : Bool) (request : Request)
  deriving DecidableEq, Repr

namespace Invocation

/-- The request that the words behind a command spell. Without a path the source is the standard input,
which `-` stands for. -/
def request (command : Command) (r : Reading) : Request :=
  let shared : SharedOptions := ⟨r.value? .settings, r.value? .tagPrefix, r.has .json⟩
  match command with
  | .compile => .compile (r.argument.getD "-") (r.value? .output) (r.has .report) shared
  | .components => .components shared

/-- The invocation of a command. -/
def ofCommand (main : Reading) (command : Command) (behind : List String) : Invocation :=
  let g := command.grammar
  match g.words behind with
  | .error fault => refused g.program fault
  | .ok words =>
    let r := g.read (command == .compile) words
    match r.halt?, r.fault, main.extras ++ r.extras with
    | some _, _, _ => help (some command)
    | none, some fault, _ => refused g.program fault
    | none, none, [] => run (main.has .verbose) (request command r)
    | none, none, extras => refused mainGrammar.program (.unrecognized extras)

/-- The invocation of a command line. Without a command it asks for help. -/
def ofArguments (arguments : List String) : Invocation :=
  let g := mainGrammar
  match g.words arguments with
  | .error fault => refused g.program fault
  | .ok words =>
    let (r, behind) := g.readCommand words
    match r.halt?, r.fault, r.argument with
    | some .version, _, _ => version
    | some _, _, _ => help none
    | none, some fault, _ => refused g.program fault
    | none, none, some name =>
      match Command.ofName? name with
      | some command => ofCommand r command behind
      | none => refused g.program (.unknownCommand name)
    | none, none, none =>
      if r.extras.isEmpty then help none else refused g.program (.unrecognized r.extras)

end Invocation

end ComponentTags.CommandLine
