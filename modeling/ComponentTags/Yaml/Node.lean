import ComponentTags.Yaml.Token

/-!
# Nodes of a YAML document

The tree that the tokens of a document stand for, before its scalars are given their values. A mapping has a
number, that of the tokens behind its start. A reference stands for a copy of the node that it names, so that all
copies of a mapping have one number. A node that holds itself is refused.
-/

namespace ComponentTags.Yaml

inductive Node where
  | scalar (plain : Bool) (text : String)
  | sequence (items : List Node)
  | mapping (number : Nat) (entries : List (Node × Node))
  | named (name : String) (node : Node)
  | reference (name : String)

namespace Node

/-- The node where nothing is written. -/
def nothing : Node := .scalar true ""

/-- Whether an entry, a key or a value of a block ends before it has begun. -/
def isBlockBoundary : List Token → Bool
  | .entry :: _ | .key :: _ | .value :: _ | .blockEnd :: _ => true
  | _ => false

/-- Whether a key or a value in brackets ends before it has begun. -/
def isFlowBoundary (bracket : Bracket) : List Token → Bool
  | .value :: _ | .separator :: _ => true
  | .closing b :: _ => b == bracket
  | _ => false

/-- What stands between two separators: a node, or a key with its value. -/
inductive FlowEntry where
  | single (node : Node)
  | pair (number : Nat) (key value : Node)

/-- An entry as an item of a sequence; a pair is a mapping of its own. -/
def FlowEntry.toItem : FlowEntry → Node
  | single node => node
  | pair number key value => .mapping number [(key, value)]

/-- An entry of a mapping; a single node is a key without a value. -/
def FlowEntry.toPair : FlowEntry → Node × Node
  | single node => (node, nothing)
  | pair _ key value => (key, value)

/-- The node of the entries between brackets, with a number if it is a mapping. -/
def ofFlow (number : Nat) : Bracket → List FlowEntry → Node
  | .square, entries => .sequence (entries.map FlowEntry.toItem)
  | .curly, entries => .mapping number (entries.map FlowEntry.toPair)

/-- The fault of a document at tokens that do not fit: the fault that stands there, if one does. -/
def faultAt : List Token → Fault
  | .broken fault :: _ => fault
  | _ => .malformed

/-- Whether the content of a node comes next. -/
def isContent : List Token → Bool
  | .scalar .. :: _ | .opening _ :: _ | .sequenceStart :: _ | .mappingStart :: _ => true
  | _ => false

/-- What was read, and the tokens behind it. -/
abbrev Read (α : Type) := Except Fault (α × List Token)

mutual

/-- Reads a node. A block sequence that is the value of a key need not be indented; such a sequence has
no end of its own. `fuel` bounds the nesting and the number of entries together. -/
def read : Nat → List Token → Read Node
  | 0, _ => .error .malformed
  | fuel + 1, tokens =>
    match tokens with
    | .scalar plain text :: rest => .ok (.scalar plain text, rest)
    | .opening bracket :: rest =>
      (readFlow fuel bracket rest).map fun (entries, behind) =>
        (ofFlow rest.length bracket entries, behind)
    | .sequenceStart :: rest =>
      match readItems fuel rest with
      | .ok (items, .blockEnd :: rest) => .ok (.sequence items, rest)
      | .ok (_, rest) => .error (faultAt rest)
      | .error fault => .error fault
    | .mappingStart :: rest =>
      (readEntries fuel rest).map fun (entries, behind) => (.mapping rest.length entries, behind)
    | .anchor name :: rest =>
      if isContent rest then (read fuel rest).map fun (node, rest) => (.named name node, rest)
      else .ok (.named name nothing, rest)
    | .reference name :: rest => .ok (.reference name, rest)
    | _ => .error (faultAt tokens)

/-- Reads the entries of a block sequence as far as they go. -/
def readItems : Nat → List Token → Read (List Node)
  | 0, _ => .error .malformed
  | fuel + 1, .entry :: rest =>
    let item := if isBlockBoundary rest then .ok (nothing, rest) else read fuel rest
    match item with
    | .ok (item, rest) => (readItems fuel rest).map fun (items, rest) => (item :: items, rest)
    | .error fault => .error fault
  | _ + 1, tokens => .ok ([], tokens)

/-- Reads a key or a value in a block, which may be missing. -/
def readField : Nat → List Token → Read Node
  | 0, _ => .error .malformed
  | fuel + 1, tokens =>
    match tokens with
    | .entry :: _ => (readItems fuel tokens).map fun (items, rest) => (.sequence items, rest)
    | .anchor name :: .entry :: rest =>
      (readItems fuel (.entry :: rest)).map fun (items, rest) => (.named name (.sequence items), rest)
    | _ => if isBlockBoundary tokens then .ok (nothing, tokens) else read fuel tokens

/-- Reads the entries of a block mapping and its end. -/
def readEntries : Nat → List Token → Read (List (Node × Node))
  | 0, _ => .error .malformed
  | fuel + 1, .key :: rest =>
    match readField fuel rest with
    | .ok (key, rest) =>
      let value :=
        match rest with
        | .value :: rest => readField fuel rest
        | _ => .ok (nothing, rest)
      match value with
      | .ok (value, rest) =>
        (readEntries fuel rest).map fun (entries, rest) => ((key, value) :: entries, rest)
      | .error fault => .error fault
    | .error fault => .error fault
  | _ + 1, .blockEnd :: rest => .ok ([], rest)
  | _ + 1, tokens => .error (faultAt tokens)

/-- Reads the entries between brackets and the closing bracket. A separator may stand before it. -/
def readFlow : Nat → Bracket → List Token → Read (List FlowEntry)
  | 0, _, _ => .error .malformed
  | fuel + 1, bracket, tokens =>
    match tokens with
    | .closing b :: rest => if b = bracket then .ok ([], rest) else .error .malformed
    | _ =>
      match readFlowEntry fuel bracket tokens with
      | .ok (entry, .separator :: rest) =>
        (readFlow fuel bracket rest).map fun (entries, rest) => (entry :: entries, rest)
      | .ok (entry, .closing b :: rest) =>
        if b = bracket then .ok ([entry], rest) else .error .malformed
      | .ok (_, rest) => .error (faultAt rest)
      | .error fault => .error fault

/-- Reads a key or a value between brackets, which may be missing. -/
def readFlowField : Nat → Bracket → List Token → Read Node
  | 0, _, _ => .error .malformed
  | fuel + 1, bracket, tokens =>
    if isFlowBoundary bracket tokens then .ok (nothing, tokens) else read fuel tokens

/-- Reads an entry between brackets. -/
def readFlowEntry : Nat → Bracket → List Token → Read FlowEntry
  | 0, _, _ => .error .malformed
  | fuel + 1, bracket, .key :: rest =>
    match readFlowField fuel bracket rest with
    | .ok (key, .value :: behind) =>
      (readFlowField fuel bracket behind).map fun (value, behind) => (.pair rest.length key value, behind)
    | .ok (key, behind) => .ok (.pair rest.length key nothing, behind)
    | .error fault => .error fault
  | fuel + 1, _, tokens => (read fuel tokens).map fun (node, rest) => (.single node, rest)

end

/-- The node of a document and the tokens behind it; a document may be empty. -/
def readDocument (tokens : List Token) : Read Node :=
  let fuel := 3 * tokens.length + 3
  match tokens with
  | [] => .ok (nothing, [])
  | .documentStart :: rest =>
    match rest with
    | [] | .documentStart :: _ | .documentEnd :: _ => .ok (nothing, rest)
    | _ => read fuel rest
  | _ => read fuel tokens

/-- Nodes under their names, the last one first. -/
abbrev Named := List (String × Node)

mutual

/-- The node with copies of the nodes that were named before it for the references to them, and all nodes that
are named by then. -/
def resolve (known : Named) : Node → Option (Node × Named)
  | .scalar plain text => some (.scalar plain text, known)
  | .sequence items => (resolveItems known items).map fun (items, known) => (.sequence items, known)
  | .mapping number entries =>
    (resolveEntries known entries).map fun (entries, known) => (.mapping number entries, known)
  | .named name node => (resolve known node).map fun (node, known) => (node, (name, node) :: known)
  | .reference name => (known.lookup name).map fun node => (node, known)

def resolveItems (known : Named) : List Node → Option (List Node × Named)
  | [] => some ([], known)
  | item :: items =>
    match resolve known item with
    | some (item, known) => (resolveItems known items).map fun (items, known) => (item :: items, known)
    | none => none

def resolveEntries (known : Named) : List (Node × Node) → Option (List (Node × Node) × Named)
  | [] => some ([], known)
  | (key, value) :: entries =>
    match resolve known key with
    | none => none
    | some (key, known) =>
      match resolve known value with
      | none => none
      | some (value, known) =>
        (resolveEntries known entries).map fun (entries, known) => ((key, value) :: entries, known)

end

/-- The node of a text with one document. -/
def ofTokens (tokens : List Token) : Except Fault Node :=
  match readDocument tokens with
  | .ok (node, rest) =>
    match rest.dropWhile (· == .documentEnd) with
    | [] => orMalformed ((node.resolve []).map (·.1))
    | rest => .error (faultAt rest)
  | .error fault => .error fault

end Node

end ComponentTags.Yaml
