import EntityLink.Generation

namespace EntityLink.CommandLine
open Text

/-- The findings of a run, under a heading if there are any. -/
def findingsReport (fs : List Finding) : String :=
  if fs.isEmpty then ""
  else "Diagnostics:\n" ++ String.join (fs.map (fun f => "  " ++ f.render ++ "\n"))

def fetchWord : Fetch → String
  | .lazy => "Lazy"
  | .eager => "Eager"

def relationshipLine (r : Relationship) : String :=
  let pairing := match r.inverseField with
    | some field => "inverse " ++ field
    | none => "unidirectional"
  "  " ++ r.key.render ++ " [" ++ pairing ++ (if r.circular then "; circular" else "") ++
    "; cascade \x7b" ++ join ", " (r.cascade.toList.map Cascade.label) ++ "\x7d; fetch " ++
    fetchWord r.fetch ++ "]\n"

def analysisReport (a : Analysis) : String :=
  "Relationships:\n" ++ String.join (a.relationships.map relationshipLine) ++
    "Cycles: " ++ toString a.cycles.length ++ "\n" ++
    String.join (a.cycles.map (fun c => "  " ++ c.describe ++ "\n")) ++
    findingsReport a.findings

def generationReport (g : Generation) (written : Nat) (output : String) : String :=
  "Generated " ++ toString written ++ " files in " ++ output ++ "\n" ++
    findingsReport (g.analysis.findings ++ g.synthesis.findings)

end EntityLink.CommandLine
