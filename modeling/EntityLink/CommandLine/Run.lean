import EntityLink.CommandLine.Arguments
import EntityLink.CommandLine.Failure
import EntityLink.CommandLine.Report
import EntityLink.Manifest
import EntityLink.Settings.File

namespace EntityLink.CommandLine

/-- What a run needs of the system it runs on. Operations that fail give the cause as the
system words it. -/
structure Host (m : Type → Type) where
  isFile : String → m Bool
  readText : String → m (Except String String)
  createDirectories : String → m (Except String Unit)
  writeText : String → String → m (Except String Unit)
  /-- The user's home directory. -/
  home : Option String
  environment : List (String × String)

/-- How a run ends: with an exit code, what it prints, and why it failed, if it did. -/
structure Outcome where
  exit : Nat
  stdout : String := ""
  failure : Option Failure := none
  deriving DecidableEq, Repr

def Outcome.failed (f : Failure) : Outcome :=
  { exit := 1, failure := some f }

def settingsFile : String := "relsync.toml"

/-- A path within a directory. -/
def within (directory name : String) : String :=
  if name.toList.head? = some '/' then name
  else if directory.toList.getLast? = some '/' then directory ++ name
  else directory ++ "/" ++ name

variable {m : Type → Type} [Monad m]

def mergeFile (h : Host m) (s : Settings) (path : String) : ExceptT Failure m Settings := do
  match ← h.readText path with
  | .error cause => throw (.unreadSettings path cause)
  | .ok source =>
    match s.merge? Settings.Overlay.parse? source with
    | some s => return s
    | none => throw (.badSettings path)

/-- Settings in layers: the defaults, the user's file, the project's file, a file named in the
arguments, the environment. -/
def loadSettings (h : Host m) (named : Option String) : ExceptT Failure m Settings := do
  let user := h.home.map (within · (".config/relsync/" ++ settingsFile))
  let mut s : Settings := {}
  for path in user.toList ++ [settingsFile] do
    if ← h.isFile path then
      s ← mergeFile h s path
  for path in named.toList do
    s ← mergeFile h s path
  return s.withVariables h.environment

def loadCatalog (h : Host m) (path : String) : ExceptT Failure m Catalog := do
  match ← h.readText path with
  | .error cause => throw (.unreadManifest path cause)
  | .ok source =>
    match Catalog.parse? source with
    | some c => return c
    | none => throw (.badManifest path)

/-- Writes files into a directory, which is created when it is missing. -/
def writeFiles (h : Host m) (directory : String) (files : List SourceFile) :
    ExceptT Failure m Unit := do
  if let .error cause ← h.createDirectories directory then
    throw (.noOutputDirectory directory cause)
  for file in files do
    let path := within directory file.name
    if let .error cause ← h.writeText path file.contents then
      throw (.unwritten path cause)

def failureOf (e : Except Cancelled α) : Except Failure α :=
  e.mapError (fun c => .cancelled c.message)

/-- Findings that are errors make a run fail after it has printed them. -/
def execute (h : Host m) (named : Option String) (c : Command) : ExceptT Failure m Outcome := do
  let s ← loadSettings h named
  match c with
  | .analyze manifest =>
    let catalog ← loadCatalog h manifest
    let a ← ExceptT.mk (pure (failureOf (Analysis.run false s catalog)))
    return { exit := if Finding.anyError a.findings then 1 else 0, stdout := analysisReport a }
  | .generate manifest output =>
    let catalog ← loadCatalog h manifest
    let g ← ExceptT.mk (pure (failureOf (Generation.run false s catalog)))
    let files := g.synthesis.files s.indentWidth
    writeFiles h output files
    return {
      exit := if g.hasErrors then 1 else 0
      stdout := generationReport g files.length output }

/-- Runs the program on its arguments. -/
def run (h : Host m) (arguments : List String) : m Outcome := do
  match Request.ofArguments arguments with
  | .version => return { exit := 0, stdout := "relsync 0.1.0\n" }
  | .help => return { exit := 0 }
  | .misuse => return { exit := 2 }
  | .run named c =>
    match ← (execute h named c).run with
    | .ok outcome => return outcome
    | .error f => return .failed f

end EntityLink.CommandLine
