import EntityLink.Settings

namespace EntityLink

inductive Severity
  | info
  | warning
  | error
  deriving DecidableEq, Repr

namespace Severity

/-- The severity of a problem that the run recovers from. -/
def ofMode : ValidationMode → Severity
  | .lenient => warning
  | .strict => error

def label : Severity → String
  | info => "info"
  | warning => "warning"
  | error => "error"

end Severity

inductive FindingKind
  /-- A relationship without a target; nothing is generated for it. -/
  | unresolvedTarget
  /-- Several relationships could be the inverse; the first was taken. -/
  | ambiguousInverse
  /-- A many-to-many that carries columns of its own. -/
  | associationAttributes
  /-- A relationship on a cycle leads to an entity without the guard. -/
  | circularWithoutGuard
  /-- The cascades of a relationship, or of a pair, contradict each other. -/
  | cascadeConflict
  /-- A public mutator calls a public mutator of another object. -/
  | recursionHazard
  deriving DecidableEq, Repr

/-- Something about one entity, or one of its fields, that a run reports without giving up. -/
structure Finding where
  severity : Severity
  kind : FindingKind
  entity : String
  field : Option String
  message : String
  deriving DecidableEq, Repr

namespace Finding

/-- Written `severity: entity.field: message`. -/
def render (f : Finding) : String :=
  let place := match f.field with
    | some field => f.entity ++ "." ++ field
    | none => f.entity
  f.severity.label ++ ": " ++ place ++ ": " ++ f.message

/-- Whether a run that reports these has failed. -/
def anyError (fs : List Finding) : Bool :=
  fs.any (·.severity == .error)

def ofKind (kind : FindingKind) (fs : List Finding) : List Finding :=
  fs.filter (·.kind == kind)

end Finding

end EntityLink
