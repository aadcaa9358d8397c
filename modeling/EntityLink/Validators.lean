import EntityLink.Link
import EntityLink.Analysis
import EntityLink.GeneratedEntity

namespace EntityLink
open Java

namespace Validators

/-- A validator runs its checks in order over one flag. -/
def aggregate (name doc : String) (checks : List Stmt) : Method where
  kind := .validator
  visibility := .publicAccess
  name := name
  doc := some doc
  returnType := some "boolean"
  body := [.declare "boolean" "valid" (.bool true)] ++ checks ++ [.ret (some (.var "valid"))]

def invalidate : Stmt :=
  .assign (.var "valid") (.bool false)

/-- A check of the value of a field, or of every element of a collection, where an element that
is null fails. -/
def perValue (r : Relationship) (failed : Expr → Expr) : Stmt :=
  if r.kind.isCollection then
    let element := safeIdentifier (Noun.singularize r.field)
    .forEach r.targetSimple element (.callThis (MemberNames.ofField r.field true).getter [])
      [.when (.or [.isNull (.var element),failed (.var element)]) [invalidate]]
  else
    .when (.and [.notNull (.thisField r.field),failed (.thisField r.field)]) [invalidate]

/-- Whether `value` does not refer back to `this` through the inverse side. -/
def missesBack (o : Relationship) (value : Expr) : Expr :=
  let back := Expr.call value (MemberNames.ofField o.field o.kind.isCollection).getter []
  if o.kind.isCollection then .not (.call back "contains" [.this]) else .notSame back .this

def inverseChecks (a : Analysis) (r : Relationship) : List Stmt :=
  match a.findInverse? r with
  | none => []
  | some o => [
    .comment (r.field ++ " <-> " ++ o.sourceSimple ++ "." ++ o.field),
    perValue r (missesBack o)]

def validateRelationships (a : Analysis) (rs : List Relationship) : Method :=
  let checks := rs.flatMap (inverseChecks a)
  aggregate "validateRelationships"
    "Returns false when an inverse side no longer points back at this entity."
    (if checks.isEmpty then [.comment "no bidirectional relationships"] else checks)

def guardChecks (r : Relationship) : List Stmt :=
  if r.circular then [
    .comment (r.key.render ++ " is on a reference cycle"),
    perValue r (fun value => .not (.instanceOf value guardInterface))]
  else []

/-- Checks that the values of circular fields are guarded. Where this method exists the guard
interface is generated too. -/
def validateCircular (s : Settings) (rs : List Relationship) : Method :=
  aggregate circularValidator
    ("Returns false when a value on a reference cycle is not a " ++ guardInterface ++ "." ++
      (if s.circularGuard then ""
        else "\nCycle members are not generated with the guard, so this fails until they implement it."))
    (rs.flatMap guardChecks)

/-- The contradictions between the cascades and the orphan removal of a relationship, and
between those of a pair. -/
def cascadeConflicts (r : Relationship) (inverse : Option Relationship) : List String :=
  let removes := r.cascade.covers .remove
  let back := inverse.filter (fun o => o.cascade.covers .remove)
  let backName := (inverse.map (fun o => r.targetSimple ++ "." ++ o.field)).getD ""
  (if removes && r.kind == .manyToOne then
    [r.field ++ ": REMOVE cascades from the many side to a shared " ++ r.targetSimple] else []) ++
  (if removes && r.circular then
    [r.field ++ ": REMOVE cascades around a reference cycle"] else []) ++
  (if r.orphanRemoval && !r.cascade.covers .persist then
    [r.field ++ ": orphanRemoval without PERSIST leaves new children transient"] else []) ++
  (if removes && back.isSome && r.ownerSide then
    [r.field ++ ": REMOVE cascades in both directions with " ++ backName] else []) ++
  (if r.orphanRemoval && back.isSome then
    [r.field ++ ": orphanRemoval while " ++ backName ++ " cascades REMOVE back"] else [])

def conflictsOf (a : Analysis) (r : Relationship) : List String :=
  cascadeConflicts r (a.findInverse? r)

/-- A constant verdict on the cascades, with the reasons as comments. -/
def validateCascades (a : Analysis) (rs : List Relationship) : Method where
  kind := .validator
  visibility := .publicAccess
  name := "validateCascadeTypeConsistency"
  doc := some
    "Verdict computed from the mapping at generation time.\nCascade settings are not re-read at runtime."
  returnType := some "boolean"
  body :=
    let conflicts := rs.flatMap (conflictsOf a)
    conflicts.map .comment ++ [.ret (some (.bool conflicts.isEmpty))]

/-- The relationships of an entity that validators look at. -/
def checked (a : Analysis) (entity : String) : List Relationship :=
  (a.relationshipsOf entity).filter (fun r => r.hasTarget && r.kind.isAssociation)

/-- The validators of one entity. -/
def methodsOf (s : Settings) (a : Analysis) (entity : String) : List Method :=
  let rs := checked a entity
  [validateRelationships a rs] ++
    (if rs.any Relationship.circular then [validateCircular s rs] else []) ++
    [validateCascades a rs]

/-- The conflicts that the verdicts on cascades rest on. -/
def findingsOf (a : Analysis) (entity : String) : List Finding :=
  (checked a entity).flatMap (fun r =>
    (conflictsOf a r).map (fun c => ⟨.warning,.cascadeConflict,r.source,some r.field,c⟩))

end Validators

end EntityLink
