import Crosslink.Text.Basic

namespace Crosslink

/-!
Slash-separated paths.  A path is normalised by cutting it into components and
running once over them with the list of names kept so far: empty and `.`
components vanish, `..` removes the last kept name where there is one to remove.
Everything else here, joining, the parent directory and the relative path from
one directory to a target, is stated on top of that pass.
-/

/-- The directories that relative and home paths are read against, all of them absolute
paths. -/
structure Surroundings where
  /-- The working directory. -/
  cwd : Text
  /-- The own home directory. -/
  home : Text
  /-- The home directories of users by their names. -/
  homes : List (Text × Text) := []
  deriving Repr, DecidableEq

/-- The home directory of a user; the own one goes without a name. -/
def Surroundings.homeOf? (surroundings : Surroundings) (user : Text) : Option Text :=
  if user.isEmpty then some surroundings.home else surroundings.homes.lookup user

/-- What can be wrong with a path. -/
inductive PathError where
  /-- A target was asked for and the path is empty. -/
  | empty
  /-- The path begins with `~name` and no such home directory is known. -/
  | unknownHome
  deriving Repr, DecidableEq

namespace PathError

def message : PathError → Text
  | empty => "no path specified"
  | unknownHome => "Could not determine home directory."

end PathError

namespace Path

/-- The component that names the directory itself. -/
def here : Text := ['.']

/-- The component that names the parent directory. -/
def up : Text := ['.', '.']

/-- The path starts at the root. -/
def isAbsolute (path : Text) : Bool :=
  path.startsWith ['/']

/-- The leading slashes that normalisation keeps: exactly two stay two, any other
run of them means one root. -/
def rootSlashes : Text → Nat
  | '/' :: '/' :: '/' :: _ => 1
  | '/' :: '/' :: _ => 2
  | '/' :: _ => 1
  | _ => 0

/-- Take one more component to the names kept so far, the last of them in front. -/
def push (rooted : Bool) (kept : List Text) (name : Text) : List Text :=
  if name = [] ∨ name = here then kept
  else if name = up then
    match kept with
    | [] => if rooted then [] else [up]
    | top :: rest => if top = up then up :: top :: rest else rest
  else name :: kept

def settle (rooted : Bool) (components : List Text) : List Text :=
  (components.foldl (push rooted) []).reverse

/-- Write a number of root slashes and a list of names; nothing at all is `.`. -/
def render (slashes : Nat) (names : List Text) : Text :=
  let path := List.replicate slashes '/' ++ Text.join ['/'] names
  if path.isEmpty then here else path

def normalize (path : Text) : Text :=
  render (rootSlashes path) (settle (rootSlashes path != 0) (path.splitOn '/'))

/-- A path read inside a directory; an absolute path stands for itself. -/
def under (directory path : Text) : Text :=
  if isAbsolute path then path
  else if directory.isEmpty || directory.endsWith ['/'] then directory ++ path
  else directory ++ '/' :: path

/-- A path read inside a directory, in normal form. -/
def absolute (cwd path : Text) : Text :=
  normalize (under cwd path)

def names (path : Text) : List Text :=
  (path.splitOn '/').filter fun name => !name.isEmpty

/-- Everything before the last slash, without the slashes at its end unless it
consists of slashes only. -/
def parent (path : Text) : Text :=
  let head := (path.reverse.dropWhile (· != '/')).reverse
  if head.all (· == '/') then head else Text.dropEndWhile (· == '/') head

/-- The directory that holds a file, `.` for a bare name. -/
def hostDir (file : Text) : Text :=
  let directory := parent file
  if directory.isEmpty then here else directory

/-- Concatenate parts with slashes and normalise.  Empty parts are dropped, a run
of slashes counts as one, and a later absolute part does not discard the earlier
ones. -/
def concat (parts : List Text) : Text :=
  let joined := Text.join ['/'] (parts.filter fun part => !part.isEmpty)
  if joined.isEmpty then here
  else render (if isAbsolute joined then 1 else 0)
    (settle (isAbsolute joined) (joined.splitOn '/'))

/-- The names two lists have in common at their beginning. -/
def commonLength : List Text → List Text → Nat
  | a :: as, b :: bs => if a = b then commonLength as bs + 1 else 0
  | _, _ => 0

/-- The path of a target as seen from a base directory, both read inside the
working directory: one `..` for each name that only the base has, then the names
that only the target has; `.` if both are the same. -/
def relative (cwd base target : Text) : Text :=
  let baseNames := names (absolute cwd base)
  let targetNames := names (absolute cwd target)
  let shared := commonLength baseNames targetNames
  render 0 (List.replicate (baseNames.length - shared) up ++ targetNames.drop shared)

/-- The relative path of a target as it is written into a link: forward slashes
only, and `./` where base and target are the same place. -/
def relativeHref (cwd base target : Text) : Text :=
  let path := relative cwd base target
  if path = here then ['.', '/'] else path.replaceChar '\\' '/'

def relativeHref? (cwd base target : Text) : Except PathError Text :=
  if target.isEmpty then .error .empty else .ok (relativeHref cwd base target)

/-- Remove repeated slashes, `.` components and a slash at the end, and keep `..`
components as they are. -/
def tidy (path : Text) : Text :=
  render (rootSlashes path) ((names path).filter (· != here))

/-- The name of the user in whose home directory a path begins. -/
def user? (path : Text) : Option Text :=
  match names path with
  | ('~' :: user) :: _ => if isAbsolute path then none else some user
  | _ => none

/-- What a path that begins in a home directory goes on to there: slashes at the end of the
directory are dropped, and only those of the root are not missed. -/
def inHome (home rest : Text) : Text :=
  let path := Text.dropEndWhile (· == '/') home ++ rest
  if path.isEmpty then ['/'] else path

/-- Replace a leading `~` or `~user` component by the home directory it stands for. -/
def expandHome (surroundings : Surroundings) (path : Text) : Except PathError Text :=
  match names path with
  | ('~' :: user) :: rest =>
    if isAbsolute path then .ok path
    else
      match surroundings.homeOf? user with
      | some home => .ok (inHome home (rest.flatMap fun name => '/' :: name))
      | none => .error .unknownHome
  | _ => .ok path

/-- The absolute spelling of a path: home expanded, read inside the working
directory, tidied.  No `..` is removed, so the spelling that links are computed
against is kept. -/
def located (surroundings : Surroundings) (path : Text) : Except PathError Text := do
  let expanded ← expandHome surroundings (tidy path)
  return tidy (under surroundings.cwd expanded)

end Path

end Crosslink
