import EntityLink.Classification
import EntityLink.Cycle
import EntityLink.Finding
import EntityLink.Pairing

namespace EntityLink
open Text

/-- Why a run stops early: it was cancelled before or after, or inside, the search for cycles. -/
inductive Cancelled
  | analysis
  | cycleSearch
  deriving DecidableEq, Repr

def Cancelled.message : Cancelled → String
  | analysis => "Analysis cancelled"
  | cycleSearch => "Cycle detection cancelled"

/-- The cycles among relationships. A cancelled search stops at the first entity it visits. -/
def Cycle.detect (cancelled : Bool) (rs : List Relationship) : Except Cancelled (List Cycle) :=
  if cancelled && !(Graph.ofRelationships rs).nodes.isEmpty then .error .cycleSearch
  else .ok (Cycle.all rs)

structure AnalyzedEntity where
  name : String
  table : Option String
  fields : List AnalyzedField
  deriving DecidableEq, Repr

/-- What is known of all entities and their relationships when code is generated. -/
structure Analysis where
  entities : List AnalyzedEntity := []
  relationships : List Relationship := []
  cycles : List Cycle := []
  findings : List Finding := []
  deriving DecidableEq, Repr

namespace Analysis

def relationshipsOf (a : Analysis) (entity : String) : List Relationship :=
  a.relationships.filter (·.source == entity)

/-- The inverse of a paired relationship: the first one that leads back and has the field name
noted. -/
def findInverse? (a : Analysis) (r : Relationship) : Option Relationship :=
  r.inverseField.bind (fun field =>
    a.relationships.find? (fun o =>
      o.source == r.target && o.target == r.source && o.field == field))

def find? (a : Analysis) (name : String) : Option AnalyzedEntity :=
  a.entities.find? (·.name == name)

/-- A default cascade set is chosen again once pairs and cycles are known. -/
def readvise (r : Relationship) : Relationship :=
  if r.cascadeExplicit then r
  else { r with cascade := CascadeAdvice.suggest ⟨r.kind,r.ownerSide,r.bidirectional,r.circular⟩ }

def unresolved (severity : Severity) (r : Relationship) : List Finding :=
  if r.kind != .inheritance && !r.hasTarget then
    [⟨severity,.unresolvedTarget,r.source,some r.field,
      r.kind.label ++ " field of type '" ++ r.fieldType ++
        "' has no resolvable target entity; no code is generated for it"⟩]
  else []

def attributed (r : Relationship) : List Finding :=
  if r.joinAttributes.isEmpty then []
  else [⟨.info,.associationAttributes,r.source,some r.field,
    "join table carries extra attributes (" ++ join ", " r.joinAttributes ++
      "); consider an association entity"⟩]

def ambiguous (severity : Severity) (a : Ambiguity) : Finding :=
  ⟨severity,.ambiguousInverse,a.source,some a.field,
    "multiple inverse candidates (" ++ join ", " a.candidates ++ "); paired with '" ++
      a.candidates.headD "" ++ "'"⟩

def findingsOf (severity : Severity) (rs : List Relationship) (as : List Ambiguity) :
    List Finding :=
  rs.flatMap (fun r => unresolved severity r ++ attributed r) ++ as.map (ambiguous severity)

def analyzedEntity (c : Catalog) (e : Entity) : AnalyzedEntity :=
  ⟨e.name,e.table,(c.classify e).fields⟩

/-- The classified relationships of all entities, in order of declaration. -/
def classified (c : Catalog) : List Relationship :=
  (c.entities.filter (·.kind == .entity)).flatMap (fun e => (c.classify e).relationships)

/-- The cycles to mark; none when they are not wanted. -/
def cyclesOf (s : Settings) (rs : List Relationship) : List Cycle :=
  if s.detectCycles then Cycle.all rs else []

/-- Analysis of a whole catalog: relationships are classified, those on cycles marked, inverse
sides paired and default cascades settled, in this order. -/
def ofCatalog (s : Settings) (c : Catalog) : Analysis :=
  let rs := classified c
  let cycles := cyclesOf s rs
  let marked := markCircular rs cycles
  let pairing := Pairing.ofRelationships s.inferInverseByName marked
  let settled := (pairing.apply marked).map readvise
  { entities := (c.entities.filter (·.kind == .entity)).map (analyzedEntity c)
    relationships := settled
    cycles := cycles
    findings := findingsOf (.ofMode s.validationMode) settled pairing.ambiguities }

/-- Analysis that a cancelled run does not finish. -/
def run (cancelled : Bool) (s : Settings) (c : Catalog) : Except Cancelled Analysis :=
  if cancelled then .error .analysis else .ok (ofCatalog s c)

end Analysis

end EntityLink
