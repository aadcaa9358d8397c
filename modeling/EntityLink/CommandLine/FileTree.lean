import EntityLink.CommandLine.Run
import EntityLink.Text.Lines

namespace EntityLink.CommandLine
open Text

/-- A directory held in memory. `place` is its absolute path; the parts of all other paths are
counted from there. -/
structure FileTree where
  place : String
  files : List (List String × String) := []
  directories : List (List String) := []
  deriving DecidableEq, Repr

namespace FileTree

def missing : String := "No such file or directory (os error 2)"
def fileExists : String := "File exists (os error 17)"
def notADirectory : String := "Not a directory (os error 20)"
def isADirectory : String := "Is a directory (os error 21)"

/-- The parts of a path, a last empty one for a slash at its end. -/
def partsOf (t : FileTree) (path : String) : List String :=
  let cs := path.toList
  let cs := (stripStart? (t.place ++ "/").toList cs).getD cs
  (splitAt '/' cs).map String.ofList

def isDirectory (t : FileTree) (spot : List String) : Bool :=
  spot.isEmpty || t.directories.contains spot ||
    t.files.any (fun f => spot.isPrefixOf f.1 && spot != f.1)

def content? (t : FileTree) (spot : List String) : Option String :=
  t.files.lookup spot

/-- Follows the parts of a path from a directory. All but the last must be directories. -/
def locate (t : FileTree) (here : List String) : List String → Except String (List String)
  | [] => .ok here
  | part :: parts =>
    if !t.isDirectory here then
      .error (if (t.content? here).isSome then notADirectory else missing)
    else if part = "" ∨ part = "." then locate t here parts
    else if part = ".." then locate t here.dropLast parts
    else locate t (here ++ [part]) parts

def isFile (t : FileTree) (path : String) : Bool :=
  match t.locate [] (t.partsOf path) with
  | .ok spot => (t.content? spot).isSome
  | .error _ => false

def read (t : FileTree) (path : String) : Except String String := do
  let spot ← t.locate [] (t.partsOf path)
  match t.content? spot with
  | some text => .ok text
  | none => .error (if t.isDirectory spot then isADirectory else missing)

/-- Creates the directories along a path that are missing. -/
def create (t : FileTree) (here : List String) : List String → Except String FileTree
  | [] => .ok t
  | part :: parts =>
    if part = "" ∨ part = "." then create t here parts
    else if part = ".." then create t here.dropLast parts
    else
      let next := here ++ [part]
      if t.isDirectory next then create t next parts
      else if (t.content? next).isSome then
        .error (if parts.isEmpty then fileExists else notADirectory)
      else create { t with directories := next :: t.directories } next parts

def write (t : FileTree) (path text : String) : Except String FileTree := do
  let spot ← t.locate [] (t.partsOf path)
  if t.isDirectory spot then throw isADirectory
  if !t.isDirectory spot.dropLast then throw missing
  return { t with files := (t.files.filter (fun f => f.1 != spot)) ++ [(spot,text)] }

/-- The file tree as the system that a run works on. -/
def host (home : Option String) (environment : List (String × String)) : Host (StateM FileTree) where
  isFile path := do return (← get).isFile path
  readText path := do return (← get).read path
  createDirectories path := do
    let t ← get
    match t.create [] (t.partsOf path) with
    | .ok t => set t; return .ok ()
    | .error cause => return .error cause
  writeText path text := do
    match (← get).write path text with
    | .ok t => set t; return .ok ()
    | .error cause => return .error cause
  home := home
  environment := environment

/-- The files whose names end as given, sorted by path. -/
def filesEnding (t : FileTree) (e : String) : List (String × String) :=
  ((t.files.map (fun f => (join "/" f.1,f.2))).filter
    (fun f => e.toList.isSuffixOf f.1.toList)).mergeSort (fun a b => !decide (b.1 < a.1))

end FileTree

end EntityLink.CommandLine
