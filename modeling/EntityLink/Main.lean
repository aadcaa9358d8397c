import EntityLink.CommandLine.Run

namespace EntityLink.CommandLine

/-- The system's own words for an input or output error. -/
def causeOf : IO.Error → String
  | .noFileOrDirectory _ code _ => s!"No such file or directory (os error {code})"
  | .alreadyExists _ code _ => s!"File exists (os error {code})"
  | .inappropriateType _ code _ => s!"Not a directory (os error {code})"
  | .permissionDenied _ code _ => s!"Permission denied (os error {code})"
  | e => toString e

def attempt (act : IO α) : IO (Except String α) := do
  try
    return .ok (← act)
  catch e => return .error (causeOf e)

def settingNames : List String := [
  "RELSYNC_VALIDATION_MODE", "RELSYNC_INFER_INVERSE_BY_NAME", "RELSYNC_DETECT_CYCLES",
  "RELSYNC_PERSISTENCE_NAMESPACE", "RELSYNC_INDENT_WIDTH"]

/-- The machine that the program is started on. What can be read counts as a file. -/
def machine : IO (Host IO) := do
  let home ← IO.getEnv "HOME"
  let environment ← settingNames.filterMapM (fun n => do
    return (← IO.getEnv n).map (fun v => (n,v)))
  return {
    isFile := fun path => do return (← attempt (IO.FS.readFile path)).toBool
    readText := fun path => attempt (IO.FS.readFile path)
    createDirectories := fun path => attempt (IO.FS.createDirAll path)
    writeText := fun path text => attempt (IO.FS.writeFile path text)
    home := home
    environment := environment }

end EntityLink.CommandLine

open EntityLink.CommandLine in
def main (arguments : List String) : IO UInt32 := do
  let outcome ← run (← machine) arguments
  IO.print outcome.stdout
  if let some f := outcome.failure then
    IO.eprintln f.message
  return outcome.exit.toUInt32
