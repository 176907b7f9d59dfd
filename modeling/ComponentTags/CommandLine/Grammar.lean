import ComponentTags.Text.Quoted

/-!
# Options and commands

The options that the program and each of its commands know. An option has short names, a dash and a
letter, and long names, two dashes and a word; it is a switch or takes a value.
-/

namespace ComponentTags.CommandLine

inductive OptionKey where
  | help | version | verbose | output | report | settings | tagPrefix | json
  deriving DecidableEq, Repr

structure OptionRule where
  key : OptionKey
  names : List String
  takesValue : Bool
  deriving DecidableEq, Repr

/-- The options of a program or of one of its commands. -/
structure Grammar where
  program : String
  options : List OptionRule

namespace Grammar

/-- All names of options with what they stand for. -/
def names (g : Grammar) : List (String × OptionRule) :=
  g.options.flatMap fun rule => rule.names.map (·, rule)

/-- The option of a name. -/
def rule? (g : Grammar) (name : String) : Option OptionRule :=
  g.names.lookup name

end Grammar

inductive Command where
  | compile | components
  deriving DecidableEq, Repr

namespace Command

def all : List Command := [compile, components]

def name : Command → String
  | compile => "compile"
  | components => "components"

def ofName? (name : String) : Option Command :=
  all.find? (·.name == name)

end Command

def helpRule : OptionRule := ⟨.help, ["-h", "--help"], false⟩

/-- The rules that both commands share. -/
def settingsRules : List OptionRule :=
  [⟨.settings, ["--config"], true⟩, ⟨.tagPrefix, ["--prefix"], true⟩, ⟨.json, ["--json"], false⟩]

/-- The options in front of a command. -/
def mainGrammar : Grammar :=
  ⟨"bladetags",
    [helpRule, ⟨.version, ["--version"], false⟩, ⟨.verbose, ["-v", "--verbose"], false⟩]⟩

/-- The options of a command. -/
def Command.grammar : Command → Grammar
  | compile =>
    ⟨"bladetags compile",
      [helpRule, ⟨.output, ["--output", "-o"], true⟩, ⟨.report, ["--report"], false⟩] ++
        settingsRules⟩
  | components => ⟨"bladetags components", helpRule :: settingsRules⟩

/-- Why arguments are refused. -/
inductive UsageFault where
  | ambiguous (text : String) (names : List String)
  | missingValue (rule : OptionRule)
  | unusedText (rule : OptionRule) (text : String)
  | unknownCommand (name : String)
  | unrecognized (texts : List String)
  deriving DecidableEq, Repr

namespace UsageFault

def message : UsageFault → String
  | ambiguous text names =>
    "ambiguous option: " ++ text ++ " could match " ++ ", ".intercalate names
  | missingValue rule => "argument " ++ "/".intercalate rule.names ++ ": expected one argument"
  | unusedText rule text =>
    "argument " ++ "/".intercalate rule.names ++ ": ignored explicit argument " ++ Text.quoted text
  | unknownCommand name =>
    let known := Command.all.map fun command => Text.quoted command.name
    "argument <command>: invalid choice: " ++ Text.quoted name ++ " (choose from " ++
      ", ".intercalate known ++ ")"
  | unrecognized texts => "unrecognized arguments: " ++ " ".intercalate texts

end UsageFault

end ComponentTags.CommandLine
