import Crosslink.Files.Service

namespace Crosslink

/-!
Files kept in memory: a map from normalised absolute paths to texts.  Directories
are not stored; a directory is there as long as a stored path lies below it.
Every operation first brings its argument into normal form against the working
directory, so the store is a map up to the spelling of paths.
-/

/-- A map from paths to texts, with the working directory that relative paths are
read in. -/
structure Store where
  /-- The working directory in normal form. -/
  cwd : Text
  /-- The stored texts by path, each path once. -/
  entries : List (Text × Text)
  /-- Paths that must not be written, as a writer would spell them. -/
  denied : List Text
  /-- The paths written so far, the last one in front. -/
  written : List Text
  deriving Repr, DecidableEq

namespace Store

def resolve (store : Store) (path : Text) : Text :=
  Path.absolute store.cwd path

def get? (store : Store) (key : Text) : Option Text :=
  store.entries.lookup key

def setEntry (key content : Text) : List (Text × Text) → List (Text × Text)
  | [] => [(key, content)]
  | entry :: rest =>
    if entry.1 = key then (key, content) :: rest else entry :: setEntry key content rest

def put (store : Store) (path content : Text) : Store :=
  { store with entries := setEntry (store.resolve path) content store.entries }

def ofFiles (cwd : Text) (files : List (Text × Text)) (denied : List Text) : Store :=
  files.foldl (fun store file => store.put file.1 file.2)
    { cwd := Path.normalize cwd, entries := [], denied, written := [] }

/-- What every path below a directory begins with. -/
def below (key : Text) : Text :=
  key.dropEndWhile (· == '/') ++ ['/']

/-- A stored path lies below the key. -/
def isDirectory (store : Store) (key : Text) : Bool :=
  if key = ['/'] then !store.entries.isEmpty
  else store.entries.any fun entry => entry.1.startsWith (below key)

def present (store : Store) (path : Text) : Bool :=
  (store.get? (store.resolve path)).isSome || store.isDirectory (store.resolve path)

def read (store : Store) (path : Text) : Except Failure Text :=
  match store.get? (store.resolve path) with
  | some content => .ok content
  | none => .error (.noFile path)

def write (store : Store) (path content : Text) : Except Failure Unit × Store :=
  if path ∈ store.denied then (.error (.denied path), store)
  else (.ok (), { store.put path content with written := store.resolve path :: store.written })

/-- Insert a child into a list of children sorted by name; a child that is there
already becomes a directory if either says so. -/
def addChild (child : Entry) : List Entry → List Entry
  | [] => [child]
  | first :: rest =>
    if first.name = child.name then
      { first with isDirectory := first.isDirectory || child.isDirectory } :: rest
    else if child.name.precedes first.name then child :: first :: rest
    else first :: addChild child rest

/-- The child of a directory through which a stored path leads. -/
def childOf? (start path : Text) : Option Entry :=
  if path.startsWith start then
    let rest := path.drop start.length
    some { name := Text.before '/' rest, isDirectory := rest.contains '/' }
  else none

/-- The children of a directory, sorted by name. -/
def list (store : Store) (path : Text) : Except Failure (List Entry) :=
  let key := store.resolve path
  if store.isDirectory key then
    .ok ((store.entries.filterMap fun entry => childOf? (below key) entry.1).foldr addChild [])
  else .error (.noDirectory path)

/-- The greatest number of components of a stored path. -/
def depth (store : Store) : Nat :=
  (store.entries.map fun entry => (entry.1.splitOn '/').length).foldr max 0

instance : Files Store where
  read := read
  write := write
  present store path := .ok (store.present path)
  resolve := resolve
  list := list
  depth := depth

end Store

end Crosslink
