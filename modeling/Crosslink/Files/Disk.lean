import Crosslink.Files.Encoding
import Crosslink.Files.Service

namespace Crosslink

/-!
A tree of directories and files of bytes.  A path is followed name by name from the root:
every name but the last has to be that of a directory, `..` goes up, and no name is longer
than the tree allows.

There are no access rights here: every file can be read and written, and every directory
listed, by whoever asks.  There are no symbolic links either, so that `..` always leads back
to the directory that a name was followed from.
-/

/-- What a name of a tree stands for. -/
inductive Node where
  | file (content : Bytes)
  | directory
  deriving Repr, DecidableEq

/-- A tree with the directories that relative and home paths are read against. -/
structure Disk where
  surroundings : Surroundings
  /-- The nodes below the root by the names on the way to them, each way once. -/
  nodes : List (List Text × Node)
  deriving Repr, DecidableEq

namespace Disk

/-- Names have at most so many bytes. -/
def nameLimit : Nat := 255

/-- Paths have fewer bytes than this. -/
def pathLimit : Nat := 4096

/-- The node at the end of a way; the root is a directory. -/
def node? (disk : Disk) (way : List Text) : Option Node :=
  if way.isEmpty then some .directory else disk.nodes.lookup way

/-- Where a path leads. -/
inductive Destination where
  | found (way : List Text) (node : Node)
  /-- To a name that a directory does not hold. -/
  | vacant (way : List Text)
  /-- Through a directory that is not there. -/
  | missing
  /-- Through a file. -/
  | blocked
  /-- To a name that is too long. -/
  | tooLong
  deriving Repr, DecidableEq

def follow (disk : Disk) : List Text → List Text → Destination
  | way, [] => .found way .directory
  | way, name :: rest =>
    if name = Path.up then follow disk way.dropLast rest
    else if nameLimit < Utf8.length name then .tooLong
    else
      match disk.node? (way ++ [name]), rest with
      | some .directory, _ => follow disk (way ++ [name]) rest
      | some (.file content), [] => .found (way ++ [name]) (.file content)
      | some (.file _), _ => .blocked
      | none, [] => .vacant (way ++ [name])
      | none, _ => .missing

/-- Where a tidy path leads. -/
def locate (disk : Disk) (path : Text) : Destination :=
  if pathLimit ≤ Utf8.length path then .tooLong
  else
    disk.follow [] ((Path.names (Path.under disk.surroundings.cwd path)).filter
      (· != Path.here))

/-- The node that a path leads to.  A path that leads nowhere, or that holds a character
no name may hold, has none; one with too long a name is an error. -/
def nodeAt? (disk : Disk) (path : Text) : Except Failure (Option Node) :=
  let tidy := Path.tidy path
  if tidy.contains '\x00' then .ok none
  else
    match disk.locate tidy with
    | .found _ node => .ok (some node)
    | .tooLong => .error (.nameTooLong tidy)
    | _ => .ok none

def present (disk : Disk) (path : Text) : Except Failure Bool :=
  (disk.nodeAt? path).map (·.isSome)

def readBytes (disk : Disk) (path : Text) : Except Failure Bytes :=
  match disk.nodeAt? path with
  | .ok (some (.file content)) => .ok content
  | .ok _ => .error (.noFile path)
  | .error failure => .error failure

def setNode (way : List Text) (node : Node) : List (List Text × Node) → List (List Text × Node)
  | [] => [(way, node)]
  | entry :: rest =>
    if entry.1 = way then (way, node) :: rest else entry :: setNode way node rest

def put (disk : Disk) (way : List Text) (node : Node) : Disk :=
  { disk with nodes := setNode way node disk.nodes }

/-- Make one directory in a directory that is there.  One that is there already is fine,
anything else of its name is not. -/
def makeOne (disk : Disk) (path : Text) (destination : Destination) : Except Failure Unit × Disk :=
  match destination with
  | .found _ .directory => (.ok (), disk)
  | .found _ (.file _) => (.error (.alreadyThere path), disk)
  | .vacant way => (.ok (), disk.put way .directory)
  | .missing => (.error (.noDirectory path), disk)
  | .blocked => (.error (.notDirectory path), disk)
  | .tooLong => (.error (.nameTooLong path), disk)

/-- Make a directory and those above it that are missing.  The directory is given by the
names of its path, the last in front, behind a beginning that stands for the root of an
absolute path. -/
def makeDirectories (disk : Disk) (beginning : Text) : List Text → Except Failure Unit × Disk
  | [] => (.ok (), disk)
  | name :: above =>
    let path := beginning ++ Text.join ['/'] (name :: above).reverse
    if path.contains '\x00' then (.error .nullInPath, disk)
    else
      match disk.locate path with
      | .missing =>
        match disk.makeDirectories beginning above with
        | (.ok (), disk) => disk.makeOne path (disk.locate path)
        | failed => failed
      | destination => disk.makeOne path destination

/-- Put bytes into a file; a new one is made for them. -/
def storeBytes (disk : Disk) (path : Text) (content : Bytes) : Except Failure Unit × Disk :=
  if path.contains '\x00' then (.error .nullInPath, disk)
  else
    match disk.locate path with
    | .found _ .directory => (.error (.isDirectory path), disk)
    | .found way (.file _) => (.ok (), disk.put way (.file content))
    | .vacant way => (.ok (), disk.put way (.file content))
    | .missing => (.error (.noFile path), disk)
    | .blocked => (.error (.notDirectory path), disk)
    | .tooLong => (.error (.nameTooLong path), disk)

/-- The names of a tidy path, and what stands in front of them. -/
def parts (path : Text) : Text × List Text :=
  (List.replicate (Path.rootSlashes path) '/', (Path.names path).filter (· != Path.here))

/-- Put bytes into a file, making the directories above it. -/
def writeBytes (disk : Disk) (path : Text) (content : Bytes) : Except Failure Unit × Disk :=
  let tidy := Path.tidy path
  let (beginning, names) := parts tidy
  match disk.makeDirectories beginning (names.reverse.drop 1) with
  | (.ok (), disk) => disk.storeBytes tidy content
  | failed => failed

/-- The absolute, normalised form of a path; a home directory that is not known stays as
it is. -/
def resolve (disk : Disk) (path : Text) : Text :=
  let expanded :=
    match path with
    | '~' :: rest =>
      match disk.surroundings.homeOf? (Text.before '/' rest) with
      | some home => Path.inHome home (Text.fromFirst '/' rest)
      | none => path
    | _ => path
  Path.absolute disk.surroundings.cwd expanded

def insertChild (child : Entry) : List Entry → List Entry
  | [] => [child]
  | first :: rest =>
    if child.name.precedes first.name then child :: first :: rest
    else first :: insertChild child rest

def childOf? (way : List Text) (entry : List Text × Node) : Option Entry :=
  match entry.1.getLast? with
  | some name =>
    if entry.1 = way ++ [name] then
      some { name, isDirectory := entry.2 = .directory }
    else none
  | none => none

/-- The children of the directory at the end of a way, sorted by name. -/
def children (disk : Disk) (way : List Text) : List Entry :=
  (disk.nodes.filterMap (childOf? way)).foldr insertChild []

/-- The children of a directory, sorted by name. -/
def list (disk : Disk) (path : Text) : Except Failure (List Entry) :=
  let tidy := Path.tidy path
  if tidy.contains '\x00' then .error (.noDirectory path)
  else
    match disk.locate tidy with
    | .found way .directory => .ok (disk.children way)
    | .tooLong => .error (.nameTooLong tidy)
    | _ => .error (.noDirectory path)

/-- The greatest number of names on the way to a node. -/
def depth (disk : Disk) : Nat :=
  (disk.nodes.map fun entry => entry.1.length).foldr max 0

/-- The tree with one more file, and with the directories above it. -/
def plant (disk : Disk) (path : Text) (content : Bytes) : Disk :=
  (disk.writeBytes path content).2

/-- Make a directory and those above it that are missing. -/
def makeDirectory (disk : Disk) (path : Text) : Except Failure Unit × Disk :=
  let (beginning, names) := parts (Path.tidy path)
  disk.makeDirectories beginning names.reverse

/-- Put bytes behind those of a file; a new one is made for them. -/
def appendBytes (disk : Disk) (path : Text) (content : Bytes) : Except Failure Unit × Disk :=
  match disk.nodeAt? path with
  | .ok (some (.file before)) => disk.storeBytes path (before ++ content)
  | _ => disk.storeBytes path content

/-- Make a directory and those above it, where that is possible. -/
def plantDirectory (disk : Disk) (path : Text) : Disk :=
  (disk.makeDirectory path).2

/-- A tree of nothing but the working directory and the home directory. -/
def empty (surroundings : Surroundings) : Disk :=
  let disk : Disk := { surroundings, nodes := [] }
  (disk.plantDirectory surroundings.cwd).plantDirectory surroundings.home

end Disk

/-- A tree whose files hold their text in one encoding. -/
structure Shelf where
  /-- The tree. -/
  disk : Disk
  encoding : Encoding
  deriving Repr, DecidableEq

namespace Shelf

/-- A tree whose files hold their text in UTF-8. -/
def ofDisk (disk : Disk) : Shelf where
  disk
  encoding := .utf8

def read (shelf : Shelf) (path : Text) : Except Failure Text :=
  match shelf.disk.readBytes path with
  | .ok content => shelf.encoding.decode content
  | .error failure => .error failure

/-- Put a text into a file.  The file is emptied before the text is encoded, so a text
that cannot be encoded leaves an empty file. -/
def write (shelf : Shelf) (path content : Text) : Except Failure Unit × Shelf :=
  match shelf.encoding.encode content with
  | .ok bytes =>
    let (result, disk) := shelf.disk.writeBytes path bytes
    (result, { shelf with disk })
  | .error failure =>
    match shelf.disk.writeBytes path [] with
    | (.ok (), disk) => (.error failure, { shelf with disk })
    | (.error other, disk) => (.error other, { shelf with disk })

instance : Files Shelf where
  read := read
  write := write
  present shelf := shelf.disk.present
  resolve shelf := shelf.disk.resolve
  list shelf := shelf.disk.list
  depth shelf := shelf.disk.depth

end Shelf

end Crosslink
