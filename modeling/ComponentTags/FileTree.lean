import ComponentTags.Assoc
import ComponentTags.Text.Lines
import ComponentTags.Text.Quoted
import ComponentTags.Text.Search
import ComponentTags.Text.Utf8

/-!
# Files

The files that a run can see, and the working directory that relative paths start from. Paths are
normalised before use: doubled slashes and single points are dropped, two slashes at the start are
kept, and the empty path is the working directory.
-/

namespace ComponentTags

/-- A path. What it starts with is nothing, one slash or two. -/
structure Path where
  lead : String
  segments : List String
  deriving DecidableEq, Repr

namespace Path

/-- What a path starts with. More than two slashes count as one. -/
def leadOf : List Char → String
  | '/' :: '/' :: '/' :: _ => "/"
  | '/' :: '/' :: _ => "//"
  | '/' :: _ => "/"
  | _ => ""

def ofString (s : String) : Path :=
  let segments := (Text.splitOn ['/'] s.toList).map String.ofList
  ⟨leadOf s.toList, segments.filter fun segment => segment != "" && segment != "."⟩

/-- A name is a path of one segment. -/
theorem ofString_of_name {s : String} (hcut : Text.cutAt? ['/'] s.toList = none)
    (hlead : leadOf s.toList = "") (hs : (s != "" && s != ".") = true) : ofString s = ⟨"", [s]⟩ := by
  simp only [ofString, Text.splitOn_of_cutAt?_eq_none hcut, hlead, List.map_cons, List.map_nil,
    String.ofList_toList, List.filter_cons, hs, if_true, List.filter_nil]

def isAbsolute (p : Path) : Bool :=
  p.lead != ""

/-- The text of a path. -/
def text (p : Path) : String :=
  if p.lead = "" && p.segments.isEmpty then "." else p.lead ++ "/".intercalate p.segments

/-- A path below another one; an absolute path stays as it is. -/
def join (p q : Path) : Path :=
  if q.isAbsolute then q else ⟨p.lead, p.segments ++ q.segments⟩

end Path

/-- Why the system refuses access to a file. -/
inductive AccessFault where
  | noEntry | notDirectory | isDirectory
  deriving DecidableEq, Repr

/-- A refused access and the path that was asked for. -/
structure AccessError where
  fault : AccessFault
  path : Path
  deriving DecidableEq, Repr

namespace AccessError

def message (e : AccessError) : String :=
  let reason :=
    match e.fault with
    | .noEntry => "[Errno 2] No such file or directory"
    | .notDirectory => "[Errno 20] Not a directory"
    | .isDirectory => "[Errno 21] Is a directory"
  reason ++ ": " ++ Text.quoted e.path.text

end AccessError

/-- What stands in the way of something that the files would allow: a refusal of the system, or a failure of
another kind. -/
inductive Obstacle where
  | system (message : String)
  | foreign (kind message : String)
  deriving DecidableEq, Repr

def Obstacle.message : Obstacle → String
  | system message | foreign _ message => message

/-- A working directory and the files and directories of the system, by their segments from its root on.
A directory exists if it is listed, if something is listed below it, or if the working directory is. Every tree
has the null device. -/
structure FileTree where
  root : Path
  files : Assoc (List String) Text.Bytes
  directories : List (List String)

namespace FileTree

/-- What stands at a place of the tree. -/
inductive Entry where
  | file (content : Text.Bytes)
  | device
  | directory
  deriving DecidableEq, Repr

/-- The place of the null device, which takes what is written to it and holds nothing. -/
def nullDevice : List String := ["dev", "null"]

/-- What stands at a place. -/
def entry? (t : FileTree) (place : List String) : Option Entry :=
  match t.files.get? place with
  | some content => some (.file content)
  | none =>
    let places := nullDevice :: t.root.segments :: t.directories ++ t.files.keys
    if place = nullDevice then some .device
    else if places.any (place.isPrefixOf ·) then some .directory
    else none

/-- Follows segments from a place of the tree to the last one's place. Every place on the way must be a
directory; the last one may be missing. -/
def walk (t : FileTree) (place : List String) : List String → Except AccessFault (List String)
  | [] => .ok place
  | segment :: rest =>
    match t.entry? place with
    | none => .error .noEntry
    | some (.file _) | some .device => .error .notDirectory
    | some .directory => walk t (if segment == ".." then place.dropLast else place ++ [segment]) rest

/-- The segments of a path from the root of the system on. -/
def segments (t : FileTree) (p : Path) : List String :=
  (t.root.join p).segments

/-- The place of a path in the tree. -/
def place (t : FileTree) (p : Path) : Except AccessFault (List String) :=
  t.walk [] (t.segments p)

/-- What stands at a path. -/
def access (t : FileTree) (p : Path) : Except AccessError Entry :=
  match t.place p with
  | .error fault => .error ⟨fault, p⟩
  | .ok place =>
    match t.entry? place with
    | some entry => .ok entry
    | none => .error ⟨.noEntry, p⟩

def pathExists (t : FileTree) (p : Path) : Bool :=
  match t.access p with
  | .ok _ => true
  | .error _ => false

/-- The bytes of a file. -/
def read (t : FileTree) (p : Path) : Except AccessError Text.Bytes :=
  match t.access p with
  | .error e => .error e
  | .ok .directory => .error ⟨.isDirectory, p⟩
  | .ok .device => .ok []
  | .ok (.file content) => .ok content

/-- Writes a file whose directory exists. What is written to a device leaves no trace. -/
def write (t : FileTree) (p : Path) (content : Text.Bytes) : Except AccessError FileTree :=
  match t.place p with
  | .error fault => .error ⟨fault, p⟩
  | .ok place =>
    match t.entry? place with
    | some .directory => .error ⟨.isDirectory, p⟩
    | some .device => .ok t
    | some (.file _) | none => .ok { t with files := t.files.insert place content }

/-- Puts a file at a path, whatever stood there. -/
def put (t : FileTree) (p : Path) (content : Text.Bytes) : FileTree :=
  { t with files := t.files.insert (t.segments p) content }

/-- Takes a file away. Its directory stays. -/
def erase (t : FileTree) (p : Path) : FileTree :=
  let segments := t.segments p
  { t with
    files := t.files.filter (·.1 != segments)
    directories := segments.dropLast :: t.directories }

/-- The files that are new or changed since an earlier state of the tree. -/
def changes (before after : FileTree) : Assoc (List String) Text.Bytes :=
  after.files.filter fun file => before.files.get? file.1 != some file.2

end FileTree

/-- Bytes read as a text file: UTF-8, with every line end as a line feed. -/
def readTextFile (bytes : Text.Bytes) : Except Text.Utf8Error (List Char) :=
  (Text.decodeUtf8 bytes).map Text.unifyLineEnds

end ComponentTags
