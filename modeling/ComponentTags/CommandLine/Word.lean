import ComponentTags.CommandLine.Grammar
import ComponentTags.Component
import ComponentTags.Text.Digit

/-!
# Words of a command line

What each word of a command line is on its own: an option, an argument, or the separator `--`, behind
which every word is an argument. A long option may be shortened as long as one option only is meant. A
word with a dash that names no option is an argument if it looks like a negative number or holds a
space.
-/

namespace ComponentTags.CommandLine

/-- Text that stands in one word with an option: behind its short name, where an equals sign may stand
between them, or behind an equals sign and its long name. -/
inductive Attached where
  | nothing
  | joined (text : String)
  | assigned (text : String)
  deriving DecidableEq, Repr

inductive Role where
  | separator
  | argument
  | option (rule : OptionRule) (attached : Attached)
  | unknownOption
  deriving DecidableEq, Repr

structure Word where
  text : String
  role : Role
  deriving DecidableEq, Repr

/-- Whether a text is a dash with digits behind it, and perhaps a point that digits follow. -/
def isNegativeNumber (s : List Char) : Bool :=
  match withoutFinalNewline s with
  | '-' :: digits =>
    match digits.dropWhile Text.isDigit with
    | [] => !digits.isEmpty
    | '.' :: fraction => !fraction.isEmpty && fraction.all Text.isDigit
    | _ => false
  | _ => false

/-- A text cut at its first equals sign. A name that starts with one dash only is a short one. -/
def cutAssignment (s : List Char) : String × Attached :=
  match Text.cutAt? ['='] s with
  | some (name, value) =>
    let attach := if ['-', '-'].isPrefixOf name then Attached.assigned else Attached.joined
    (String.ofList name, attach (String.ofList value))
  | none => (String.ofList s, .nothing)

/-- What a word with a dash can mean that is no option's full name: the names that it may be short for,
with the options and the attached text. -/
def Grammar.meanings (g : Grammar) (s : List Char) : List (String × OptionRule × Attached) :=
  match s with
  | '-' :: '-' :: _ =>
    let (start, attached) := cutAssignment s
    (g.names.filter fun (name, _) => start.toList.isPrefixOf name.toList).map
      fun (name, rule) => (name, rule, attached)
  | '-' :: c :: more =>
    let short := String.ofList ['-', c]
    (g.names.filter fun (name, _) => name == short).map
      fun (name, rule) => (name, rule, .joined (String.ofList more))
  | _ => []

/-- The role of a word with a dash and at least one more character. -/
def Grammar.dashedRole (g : Grammar) (text : String) : Except UsageFault Role :=
  let s := text.toList
  let (name, attached) := cutAssignment s
  match g.rule? text, g.rule? name with
  | some rule, _ => .ok (.option rule .nothing)
  | none, some rule => .ok (.option rule attached)
  | none, none =>
    match g.meanings s with
    | [(_, rule, attached)] => .ok (.option rule attached)
    | [] => .ok (if isNegativeNumber s || s.contains ' ' then .argument else .unknownOption)
    | several => .error (.ambiguous text (several.map (·.1)))

/-- The role of a word in front of the separator. -/
def Grammar.role (g : Grammar) (text : String) : Except UsageFault Role :=
  match text.toList with
  | '-' :: _ :: _ => g.dashedRole text
  | _ => .ok .argument

/-- The words of a command line. -/
def Grammar.words (g : Grammar) : List String → Except UsageFault (List Word)
  | [] => .ok []
  | "--" :: rest => .ok (⟨"--", .separator⟩ :: rest.map (⟨·, .argument⟩))
  | text :: rest =>
    match g.role text, g.words rest with
    | .error fault, _ => .error fault
    | .ok _, .error fault => .error fault
    | .ok role, .ok words => .ok (⟨text, role⟩ :: words)

end ComponentTags.CommandLine
