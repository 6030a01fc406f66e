import Crosslink.Link.Reach
import Crosslink.Terminal.Help
import Crosslink.Terminal.Session
import Std.Time.Zoned

namespace Crosslink

/-!
The program.  The part of the file system that a command line is about is read into a tree,
the command line is run on the tree, and what has changed there is written back.
-/

namespace Main

/-- A path as the operating system has it. -/
def native (path : Text) : String := String.ofList path

def pathOf (way : List Text) : Text :=
  '/' :: Text.join ['/'] way

def twoDigits (n : Nat) : Text :=
  Nat.toDigits 10 (n / 10 % 10) ++ Nat.toDigits 10 (n % 10)

def now : IO Moment := do
  let time ← Std.Time.PlainDateTime.now
  let clock := Text.join [':']
    [twoDigits time.hour.toInt.toNat, twoDigits time.minute.toInt.toNat,
      twoDigits time.second.toInt.toNat]
  let day := Text.join ['-']
    [Text.ofInt time.year.toInt, twoDigits time.month.toInt.toNat, twoDigits time.day.toInt.toNat]
  let millis := time.millisecond.toInt.toNat
  let stamp := day ++ ' ' :: clock ++ ',' :: Text.ofNat (millis / 100)
    ++ twoDigits (millis % 100) ++ [' ', '-', ' ']
  return { clock, stamp }

/-- The place that the program runs in. -/
def environment : IO Environment := do
  let cwd := (toString (← IO.currentDir)).toList
  let home := ((← IO.getEnv "HOME").getD (native cwd)).toList
  let named? := (← IO.getEnv "MDLINKS_HOME").map String.toList
  return { surroundings := { cwd, home }, named? }

def contentOf (path : Text) : IO Bytes := do
  return (← IO.FS.readBinFile (native path)).toList

def isDirectory (path : Text) : IO Bool :=
  (System.mkFilePath [native path]).isDir

/-- The path is that of a file or a directory. -/
def isPresent (path : Text) : IO Bool :=
  (System.mkFilePath [native path]).pathExists

/-- Take a file with its content, or a directory without its children, into a tree. -/
def takeNode (disk : Disk) (path : Text) : IO Disk := do
  if ← isDirectory path then return disk.plantDirectory path
  else if ← isPresent path then return disk.plant path (← contentOf path)
  else return disk

/-- Take a file or a directory without its content into a tree. -/
def takeName (disk : Disk) (path : Text) : IO Disk := do
  if ← isDirectory path then return disk.plantDirectory path
  else if (← isPresent path) && (disk.present path).toOption != some true then
    return disk.plant path []
  else return disk

/-- Take a directory with all that is below it into a tree, with the content of its markdown
files. -/
partial def takeTree (disk : Disk) (path : Text) : IO Disk := do
  let children ← (System.mkFilePath [native path]).readDir
  let mut disk := disk.plantDirectory path
  for child in children do
    let below := Path.under path child.fileName.toList
    if ← isDirectory below then disk ← takeTree disk below
    else if below.endsWith Files.markdownSuffix then disk ← takeNode disk below
    else disk ← takeName disk below
  return disk

def takeTarget (environment : Environment) (disk : Disk) (command : Command) : IO Disk := do
  match command.path? with
  | none => return disk
  | some path =>
    let target := disk.resolve path
    let disk ← if ← isDirectory target then takeTree disk target else takeNode disk target
    match Settings.loadRules environment disk command.root? with
    | .error _ => return disk
    | .ok rules =>
      (Reach.ofPath (Shelf.ofDisk disk) environment.surroundings.cwd rules target).foldlM
        takeName disk

/-- The part of the file system that a command line is about. -/
def takeDisk (environment : Environment) (words : List Text) : IO Disk := do
  let disk := Disk.empty environment.surroundings
  match environment.directory, environment.configPath with
  | .ok directory, .ok config =>
    let disk ← takeNode disk config
    let disk ← takeName disk directory
    let disk ← takeName disk (Path.under directory Log.fileName)
    match Invocation.ofWords words with
    | .command _ command => takeTarget environment disk command
    | _ => return disk
  | _, _ => return disk

/-- Write a file.  The log is not read, so what it holds in the tree is new. -/
def storeFile (path : Text) (content : Bytes) : IO Unit := do
  let bytes := ByteArray.mk content.toArray
  if path.endsWith ('/' :: Log.fileName) then
    IO.FS.withFile (native path) .append fun file => file.write bytes
  else IO.FS.writeBinFile (native path) bytes

/-- Write back what has changed in a tree. -/
def store (before after : Disk) : IO Unit :=
  after.nodes.forM fun entry => do
    if before.node? entry.1 != some entry.2 then
      match entry.2 with
      | .directory => IO.FS.createDirAll (native (pathOf entry.1))
      | .file content => storeFile (pathOf entry.1) content

/-- Show how a run has ended. -/
def showExit (exit : Exit) : IO Unit := do
  let (out, err) :=
    match exit.page with
    | .screen screen => (screen.out, screen.err)
    | .help err => (Help.page, err)
    | .usage => ([], Help.usage)
  (← IO.getStderr).putStr (native err)
  (← IO.getStdout).putStr (native out)

end Main

end Crosslink

open Crosslink in
/-- Run the program on the words of its command line. -/
def main (args : List String) : IO UInt32 := do
  let words := args.map String.toList
  let environment ← Main.environment
  let disk ← Main.takeDisk environment words
  let (result, session) := (Session.start environment disk).run (← Main.now) words
  Main.store disk session.disk
  match result with
  | .ok exit =>
    Main.showExit exit
    return UInt32.ofNat exit.code
  | .error failure =>
    (← IO.getStderr).putStrLn (String.ofList failure.message)
    return 1
