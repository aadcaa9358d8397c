import EntityLink.Proofs.GuardPlacement
import EntityLink.Proofs.MethodSignatures

namespace EntityLink
open Java

/-- Findings that are as severe as the validation mode makes them. -/
def FindingKind.isGraded : FindingKind → Bool
  | unresolvedTarget | ambiguousInverse => true
  | associationAttributes | circularWithoutGuard | cascadeConflict | recursionHazard => false

/-- Methods for convenience, which nothing else relies on. -/
def Java.MethodKind.isHelper : MethodKind → Bool
  | counter | predicate => true
  | _ => false

namespace Finding

/-- A graded finding under another severity. -/
def graded (severity : Severity) (f : Finding) : Finding :=
  if f.kind.isGraded then { f with severity := severity } else f

variable {severity : Severity} {f : Finding}

end Finding

def Synthesis.graded (severity : Severity) (s : Synthesis) : Synthesis :=
  { s with findings := s.findings.map (.graded severity) }

def GeneratedEntity.withoutHelpers (e : GeneratedEntity) : GeneratedEntity :=
  { e with methods := e.methods.filter (fun m => !m.kind.isHelper) }

def Synthesis.Part.withoutHelpers (p : Part) : Part :=
  { p with methods := p.methods.filter (fun m => !m.kind.isHelper) }

def Synthesis.withoutHelpers (s : Synthesis) : Synthesis :=
  { s with entities := s.entities.map GeneratedEntity.withoutHelpers }

namespace Generation

/-- The same output, its graded findings under another severity. -/
def graded (severity : Severity) (g : Generation) : Generation where
  analysis := { g.analysis with findings := g.analysis.findings.map (.graded severity) }
  synthesis := g.synthesis.graded severity

/-- The same output without the convenience methods. -/
def withoutHelpers (g : Generation) : Generation :=
  { g with synthesis := g.synthesis.withoutHelpers }

end Generation

namespace Analysis

end Analysis

namespace Link

variable {l : Link} {style : AccessorStyle}

end Link

namespace Synthesis

variable {s : Settings} {a : Analysis} {c : Catalog} {entity : String}

end Synthesis

namespace Generation

end Generation

end EntityLink
