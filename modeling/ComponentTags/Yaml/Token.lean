import ComponentTags.Yaml.Fault

/-!
# Tokens of a YAML document

The tokens make the layout explicit: indentation becomes the start and the end of block sequences and
mappings, and a key is announced by a token of its own. Whether something is a key shows only at the
colon behind it, so a place where a key may begin is remembered as a candidate until then. A candidate
reaches no further than its line and 1024 characters. A question mark announces a key at once.

A document is read no further than to its first fault, which takes the place of a token. Tokens are told
one after another, and no token from a candidate on is told before the candidate is decided, so the fault
stands where the first token is missing that cannot be told any more.

A node may have a name, its anchor, and a reference to the name stands for the node once more. Tags, directives
and block scalars are refused.
-/

namespace ComponentTags.Yaml

inductive Bracket where
  | square | curly
  deriving DecidableEq, Repr

inductive Token where
  | documentStart | documentEnd
  | sequenceStart | mappingStart | blockEnd
  | entry | key | value
  | opening (bracket : Bracket) | closing (bracket : Bracket) | separator
  | scalar (plain : Bool) (text : String)
  | anchor (name : String) | reference (name : String)
  | broken (fault : Fault)
  deriving DecidableEq, Repr

/-- Characters that a document may hold. -/
def isAllowed (c : Char) : Bool :=
  c == '\t' || c == '\n' || c == '\r' || (' ' ≤ c && c ≤ '~') || c == '\u0085' ||
    ('\u00a0' ≤ c && c ≤ '\ufffd') || 0x10000 ≤ c.toNat

def isBreak (c : Char) : Bool :=
  c == '\n' || c == '\u0085' || c == '\u2028' || c == '\u2029'

def isGap (c : Char) : Bool :=
  c == ' ' || c == '\t'

/-- Whether a blank, a line break or the end comes next. -/
def atWordEnd (s : List Char) : Bool :=
  s.head?.all fun c => isGap c || isBreak c

/-- The marker of a document's start or end at the beginning of a line. -/
def marker? : List Char → Option Token
  | '-' :: '-' :: '-' :: s => if atWordEnd s then some .documentStart else none
  | '.' :: '.' :: '.' :: s => if atWordEnd s then some .documentEnd else none
  | _ => none

/-- The character that a line break stands for where it is kept. -/
def keptBreak (c : Char) : Char :=
  if c == '\u0085' then '\n' else c

/-! ## Folded lines -/

/-- Skips empty lines and the blanks in front of the next text. Gives the line breaks on the way, the
column and the rest; there is no result if a document marker comes first. -/
def emptyLines (isSkipped : Char → Bool) (column : Nat) :
    List Char → Option (List Char × Nat × List Char)
  | [] => some ([], column, [])
  | c :: s =>
    if column = 0 && (marker? (c :: s)).isSome then none
    else if isSkipped c then emptyLines isSkipped (column + 1) s
    else if isBreak c then
      (emptyLines isSkipped 0 s).map fun (breaks, rest) => (keptBreak c :: breaks, rest)
    else some ([], column, c :: s)

/-- What a line break and the further breaks behind it become: one line feed alone is a space. -/
def fold (first : Char) (breaks : List Char) : List Char :=
  if keptBreak first != '\n' then first :: breaks
  else if breaks.isEmpty then [' '] else breaks

/-! ## Plain scalars -/

/-- The punctuation of sequences and mappings in brackets. -/
def isFlowIndicator (c : Char) : Bool :=
  c == ',' || c == '[' || c == ']' || c == '\x7b' || c == '\x7d'

/-- Whether a colon ends a plain scalar: in front of a blank, and in brackets also of an indicator. -/
def isColonEnd (inFlow : Bool) (rest : List Char) : Bool :=
  atWordEnd rest || (inFlow && rest.head?.any isFlowIndicator)

/-- The next word of a plain scalar, and the rest. -/
def plainWord (inFlow : Bool) : List Char → List Char × List Char
  | [] => ([], [])
  | c :: s =>
    if isGap c || isBreak c || (c == ':' && isColonEnd inFlow s) ||
        (inFlow && (isFlowIndicator c || c == '?')) then
      ([], c :: s)
    else
      let (word, rest) := plainWord inFlow s
      (c :: word, rest)

/-- What stands between two words of a plain scalar, and the rest. Words on further lines belong to the
scalar if they are indented, or in brackets. -/
def betweenWords? (inFlow : Bool) (indent : Nat) (s : List Char) : Option (List Char × List Char) :=
  let spaces := s.takeWhile (· == ' ')
  match s.dropWhile (· == ' ') with
  | [] => none
  | c :: rest =>
    if isBreak c then
      match emptyLines (· == ' ') 0 rest with
      | some (breaks, column, rest) =>
        if inFlow || indent ≤ column then some (fold c breaks, rest) else none
      | none => none
    else if spaces.isEmpty then none else some (spaces, c :: rest)

/-- A plain scalar, and what follows its last word; `fuel` bounds the number of words. -/
def plainScalar (inFlow : Bool) (indent : Nat) : Nat → List Char → List Char × List Char
  | 0, s => ([], s)
  | fuel + 1, s =>
    let (word, rest) := plainWord inFlow s
    match betweenWords? inFlow indent rest with
    | none => (word, rest)
    | some (between, next) =>
      if next.head? == some '#' || (plainWord inFlow next).1.isEmpty then (word, rest)
      else
        let (more, last) := plainScalar inFlow indent fuel next
        (word ++ between ++ more, last)

/-! ## Quoted scalars -/

/-- The characters that a backslash and one letter stand for. -/
def letterEscapes : List (Char × Nat) :=
  [('0', 0), ('a', 7), ('b', 8), ('t', 9), ('\t', 9), ('n', 10), ('v', 11), ('f', 12), ('r', 13),
   ('e', 27), (' ', 32), ('"', 34), ('\\', 92), ('/', 47), ('N', 0x85), ('_', 0xa0), ('L', 0x2028),
   ('P', 0x2029)]

/-- The number of hexadecimal digits behind a letter. -/
def hexEscapes : List (Char × Nat) :=
  [('x', 2), ('u', 4), ('U', 8)]

/-- The character that an escaped number names, and the rest behind it. Two escapes in a row may name the
halves of one character. -/
def numberedChar (n : Nat) (rest : List Char) : Except Fault (List Char × List Char) :=
  match Text.codePointError? n, Text.lowSurrogate? rest with
  | some e, _ => .error (.codePoint e)
  | none, some (low, paired) =>
    if Text.isHighSurrogate n then .ok ([Text.ofSurrogates n low], paired)
    else .ok ([Text.ofCodePoint n], rest)
  | none, none => .ok ([Text.ofCodePoint n], rest)

/-- What a backslash stands for, and the rest behind it. An escaped line break joins two lines. -/
def escape : List Char → Except Fault (List Char × List Char)
  | [] => .error .malformed
  | c :: s =>
    match letterEscapes.lookup c, hexEscapes.lookup c with
    | some n, _ => .ok ([Char.ofNat n], s)
    | none, some width =>
      match Text.takeHex? width s with
      | some (n, rest) => numberedChar n rest
      | none => .error .malformed
    | none, none =>
      if isBreak c then
        (orMalformed (emptyLines isGap 0 s)).map fun (breaks, _, rest) => (breaks, rest)
      else .error .malformed

/-- The rest of a quoted scalar behind its opening quote; `fuel` bounds the number of characters. -/
def quotedScalar (double : Bool) : Nat → List Char → Except Fault (List Char × List Char)
  | 0, _ => .error .malformed
  | _ + 1, [] => .error .malformed
  | fuel + 1, c :: s =>
    let continueWith (text rest : List Char) :=
      (quotedScalar double fuel rest).map fun (more, rest) => (text ++ more, rest)
    if double && c == '"' then .ok ([], s)
    else if double && c == '\\' then
      match escape s with
      | .ok (text, rest) => continueWith text rest
      | .error fault => .error fault
    else if !double && c == '\'' then
      match s with
      | '\'' :: rest => continueWith ['\''] rest
      | _ => .ok ([], s)
    else if isGap c || isBreak c then
      let gaps := (c :: s).takeWhile isGap
      match (c :: s).dropWhile isGap with
      | [] => .error .malformed
      | d :: rest =>
        if isBreak d then
          match emptyLines isGap 0 rest with
          | some (breaks, _, rest) => continueWith (fold d breaks) rest
          | none => .error .malformed
        else continueWith gaps (d :: rest)
    else continueWith [c] s

/-! ## Names -/

/-- Characters of the names of nodes. -/
def isNameChar (c : Char) : Bool :=
  c.isAlphanum || c == '-' || c == '_'

/-- Whether a name may end in front of a text. -/
def atNameEnd (s : List Char) : Bool :=
  atWordEnd s || s.head?.any fun c => "?:,]\x7d%@`".toList.contains c

/-- The name at the start of a text, and the rest behind it. -/
def nodeName? (s : List Char) : Option (List Char × List Char) :=
  let name := s.takeWhile isNameChar
  let rest := s.dropWhile isNameChar
  if name.isEmpty || !atNameEnd rest then none else some (name, rest)

/-! ## Layout -/

/-- A place in the document, and the text from there on. -/
structure Cursor where
  rest : List Char
  index : Nat
  line : Nat
  column : Nat

/-- Moves on by some characters. A byte order mark takes no column. -/
def Cursor.skip (cursor : Cursor) : Nat → Cursor
  | 0 => cursor
  | n + 1 =>
    match cursor.rest with
    | [] => cursor
    | c :: rest =>
      let next : Cursor :=
        if isBreak c then ⟨rest, cursor.index + 1, cursor.line + 1, 0⟩
        else if c == '\ufeff' then ⟨rest, cursor.index + 1, cursor.line, cursor.column⟩
        else ⟨rest, cursor.index + 1, cursor.line, cursor.column + 1⟩
      next.skip n

/-- Moves on to a later rest of the same text. -/
def Cursor.moveTo (cursor : Cursor) (rest : List Char) : Cursor :=
  cursor.skip (cursor.rest.length - rest.length)

/-- A place where a key may begin. -/
structure Candidate where
  tokensBefore : Nat
  place : Cursor
  required : Bool

/-- How far a document has been read: its tokens, the last one first, the columns of the open blocks,
the innermost first, and the candidate of each level of brackets, the innermost apart. -/
structure Layout where
  cursor : Cursor
  tokens : List Token
  tokenCount : Nat
  blocks : List Nat
  candidate : Option Candidate
  outerCandidates : List (Option Candidate)
  keyAllowed : Bool

namespace Layout

def ofText (s : List Char) : Layout :=
  ⟨⟨s, 0, 0, 0⟩, [], 0, [], none, [], true⟩

def inFlow (l : Layout) : Bool :=
  !l.outerCandidates.isEmpty

def emit (l : Layout) (token : Token) : Layout :=
  { l with tokens := token :: l.tokens, tokenCount := l.tokenCount + 1 }

/-- Adds a token for the next `length` characters. -/
def take (l : Layout) (token : Token) (length : Nat) : Layout :=
  { l.emit token with cursor := l.cursor.skip length }

/-- Closes the innermost blocks up to the first whose column stays. In brackets no block ends. -/
def closeBlocks (l : Layout) (stays : Nat → Bool) : Layout :=
  if l.inFlow then l
  else
    let closed := l.blocks.takeWhile fun block => !stays block
    let closedLayout := closed.foldl (fun l _ => l.emit .blockEnd) l
    { closedLayout with blocks := l.blocks.drop closed.length }

/-- Whether something at a column starts a block of its own. -/
def opensBlock (l : Layout) (column : Nat) : Bool :=
  l.blocks.head?.all (· < column)

/-- Gives the innermost candidate up. One that is required must become a key. -/
def dropCandidate (l : Layout) : Option Layout :=
  if l.candidate.any (·.required) then none else some { l with candidate := none }

/-- Notes that a key may begin here. It is required where the entries of the innermost block begin. -/
def noteCandidate (l : Layout) : Option Layout :=
  if l.keyAllowed then
    l.dropCandidate.map fun l =>
      let required := !l.inFlow && l.blocks.head? == some l.cursor.column
      { l with candidate := some ⟨l.tokenCount, l.cursor, required⟩ }
  else some l

/-- Whether a candidate is out of reach. -/
def isStale (l : Layout) (candidate : Candidate) : Bool :=
  candidate.place.line != l.cursor.line || 1024 < l.cursor.index - candidate.place.index

/-- Gives up the candidates that are out of reach, on every level. -/
def dropStale (l : Layout) : Option Layout :=
  let stale (candidate : Option Candidate) := candidate.any l.isStale
  let isLost (candidate : Option Candidate) := stale candidate && candidate.any (·.required)
  if (l.candidate :: l.outerCandidates).any isLost then none
  else
    let kept (candidate : Option Candidate) := candidate.filter fun c => !l.isStale c
    some { l with candidate := kept l.candidate, outerCandidates := l.outerCandidates.map kept }

/-- The length of the spaces, comments and line breaks up to the next token, and whether there is a line
break among them. -/
def gapLength (inComment : Bool) : List Char → Nat × Bool
  | [] => (0, false)
  | c :: s =>
    if isBreak c then ((gapLength false s).1 + 1, true)
    else if inComment || c == ' ' || c == '#' then
      let (length, broken) := gapLength (inComment || c == '#') s
      (length + 1, broken)
    else (0, false)

/-- Moves on to the next token. -/
def toNextToken (l : Layout) : Option Layout :=
  let (length, broken) := gapLength false l.cursor.rest
  let moved := { l with
    cursor := l.cursor.skip length
    keyAllowed := l.keyAllowed || (broken && !l.inFlow) }
  moved.dropStale.map fun l => l.closeBlocks (· ≤ l.cursor.column)

/-- The marker of a document's start or end. -/
def takeMarker (l : Layout) (token : Token) : Option Layout :=
  (l.closeBlocks fun _ => false).dropCandidate.map fun l =>
    { l.take token 3 with keyAllowed := false }

/-- An opening bracket, which may begin a key as well. -/
def takeOpening (l : Layout) (bracket : Bracket) : Option Layout :=
  l.noteCandidate.map fun l =>
    { l.take (.opening bracket) 1 with
      candidate := none, outerCandidates := l.candidate :: l.outerCandidates, keyAllowed := true }

def takeClosing (l : Layout) (bracket : Bracket) : Option Layout :=
  match l.dropCandidate, l.outerCandidates with
  | some l, candidate :: outer =>
    some { l.take (.closing bracket) 1 with
      candidate := candidate, outerCandidates := outer, keyAllowed := false }
  | _, _ => none

def takeSeparator (l : Layout) : Option Layout :=
  l.dropCandidate.map fun l => { l.take .separator 1 with keyAllowed := true }

/-- An indicator at the beginning of an entry in a block, which starts the block if it is the first one.
A key may begin behind it. -/
def takeIndicator (l : Layout) (start indicator : Token) : Option Layout :=
  if !l.keyAllowed then none
  else
    let column := l.cursor.column
    let opened := if l.opensBlock column then { l.emit start with blocks := column :: l.blocks } else l
    opened.dropCandidate.map fun l => { l.take indicator 1 with keyAllowed := true }

/-- The dash of a block sequence's entry. -/
def takeEntry (l : Layout) : Option Layout :=
  if l.inFlow then none else l.takeIndicator .sequenceStart .entry

/-- The question mark in front of a key. -/
def takeKey (l : Layout) : Option Layout :=
  if l.inFlow then l.dropCandidate.map fun l => { l.take .key 1 with keyAllowed := false }
  else l.takeIndicator .mappingStart .key

/-- A colon. A candidate in front of it becomes a key; without one, the key was announced before or is
missing. -/
def takeValue (l : Layout) : Option Layout :=
  match l.candidate with
  | none =>
    if l.inFlow then some { l.take .value 1 with keyAllowed := false }
    else l.takeIndicator .mappingStart .value
  | some candidate =>
    let column := candidate.place.column
    let opens := !l.inFlow && l.opensBlock column
    let added := if opens then [.key, .mappingStart] else [.key]
    let since := l.tokenCount - candidate.tokensBefore
    let keyed := { l with
      tokens := l.tokens.take since ++ added ++ l.tokens.drop since
      tokenCount := l.tokenCount + added.length
      blocks := if opens then column :: l.blocks else l.blocks
      candidate := none
      keyAllowed := false }
    some (keyed.take .value 1)

/-- A scalar that ends in front of `rest`. -/
def takeScalar (l : Layout) (plain : Bool) (text rest : List Char) : Option Layout :=
  l.noteCandidate.map fun l =>
    { l.emit (.scalar plain (String.ofList text)) with
      cursor := l.cursor.moveTo rest, keyAllowed := false }

/-- The name of a node, or a reference to a node, which may be a key. -/
def takeName (l : Layout) (token : String → Token) (s : List Char) : Option Layout :=
  (nodeName? s).bind fun (name, rest) =>
    l.noteCandidate.map fun l =>
      { l.emit (token (String.ofList name)) with
        cursor := l.cursor.moveTo rest, keyAllowed := false }

def takePlain (l : Layout) : Option Layout :=
  let s := l.cursor.rest
  let indent := (l.blocks.head?.map (· + 1)).getD 0
  let (text, rest) := plainScalar l.inFlow indent (s.length + 1) s
  l.takeScalar true text rest

def takeQuoted (l : Layout) (double : Bool) (behindQuote : List Char) : Except Fault Layout := do
  let (text, rest) ← quotedScalar double (behindQuote.length + 1) behindQuote
  orMalformed (l.takeScalar false text rest)

/-- Characters that cannot begin a token. -/
def isRefused (c : Char) : Bool :=
  "!|>%@`#\t".toList.contains c

/-- Reads a token that is no quoted scalar and begins with a character. -/
def takeBare (l : Layout) (c : Char) (rest : List Char) : Option Layout :=
  match c with
  | '[' => l.takeOpening .square
  | '{' => l.takeOpening .curly
  | ']' => l.takeClosing .square
  | '}' => l.takeClosing .curly
  | ',' => l.takeSeparator
  | '&' => l.takeName .anchor rest
  | '*' => l.takeName .reference rest
  | '-' => if atWordEnd rest then l.takeEntry else l.takePlain
  | '?' => if l.inFlow || atWordEnd rest then l.takeKey else l.takePlain
  | ':' => if l.inFlow || atWordEnd rest then l.takeValue else l.takePlain
  | _ => if isRefused c then none else l.takePlain

/-- Reads the token that begins with a character. -/
def takeToken (l : Layout) (c : Char) (rest : List Char) : Except Fault Layout :=
  match (if l.cursor.column = 0 then marker? (c :: rest) else none) with
  | some token => orMalformed (l.takeMarker token)
  | none =>
    match c with
    | '"' => l.takeQuoted true rest
    | '\'' => l.takeQuoted false rest
    | _ => orMalformed (l.takeBare c rest)

/-- The number of tokens that can be told without reading on: those in front of all candidates. -/
def toldCount (l : Layout) : Nat :=
  let undecided := (l.candidate :: l.outerCandidates).filterMap (·.filter (!l.isStale ·))
  undecided.foldl (fun count candidate => min count candidate.tokensBefore) l.tokenCount

/-- The tokens of a document that has a fault behind what has been read. -/
def brokenTokens (l : Layout) (fault : Fault) : List Token :=
  l.tokens.reverse.take l.toldCount ++ [.broken fault]

/-- The last tokens, at the end of the text. -/
def finish (l : Layout) : Option (List Token) :=
  (l.closeBlocks fun _ => false).dropCandidate.map (·.tokens.reverse)

/-- Reads the tokens up to the end of the text or the first fault; `fuel` bounds their number. -/
def scan : Nat → Layout → List Token
  | 0, l => l.brokenTokens .malformed
  | fuel + 1, l =>
    match l.toNextToken with
    | none => l.brokenTokens .malformed
    | some next =>
      match next.cursor.rest with
      | [] => next.finish.getD (l.brokenTokens .malformed)
      | c :: rest =>
        match next.takeToken c rest with
        | .ok next => scan fuel next
        | .error fault => l.brokenTokens fault

end Layout

/-- Tokens up to a name that is given twice or a reference to a name that was not given before, which is a
fault. -/
def checkNames (given : List String) : List Token → List Token
  | [] => []
  | .anchor name :: rest =>
    if given.contains name then [.broken .malformed] else .anchor name :: checkNames (name :: given) rest
  | .reference name :: rest =>
    if given.contains name then .reference name :: checkNames given rest else [.broken .malformed]
  | token :: rest => token :: checkNames given rest

/-- The tokens of a document, which may begin with a byte order mark. -/
def tokens (s : List Char) : List Token :=
  if s.all isAllowed then
    let layout := Layout.ofText s
    let mark := if s.head? == some '\ufeff' then 1 else 0
    checkNames [] (Layout.scan (s.length + 1) { layout with cursor := layout.cursor.skip mark })
  else [.broken .malformed]

end ComponentTags.Yaml
