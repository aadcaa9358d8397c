import EntityLink.Link.Declaration
import EntityLink.Link.Style
import EntityLink.RecursionCheck
import EntityLink.Validators

namespace EntityLink
open Java

/-- Where the guard interface is declared; without a package in the default one. -/
structure Guard where
  package : Option String
  deriving DecidableEq, Repr

def Guard.qualifiedName (g : Guard) : String :=
  match g.package with
  | some package => package ++ "." ++ guardInterface
  | none => guardInterface

/-- All that is generated for one analysis. -/
structure Synthesis where
  entities : List GeneratedEntity := []
  guard : Option Guard := none
  findings : List Finding := []

namespace Synthesis

/-- An entity by its qualified or its simple name. -/
def find? (s : Synthesis) (name : String) : Option GeneratedEntity :=
  s.entities.find? (fun e => e.entity == name || e.simple == name)

/-- What one relationship adds to its entity. -/
structure Part where
  imports : List String := []
  annotations : List AnnotationUse := []
  fields : List FieldDecl := []
  methods : List Method := []
  guarded : Bool := false

/-- An inheritance link adds class annotations. Any other relationship adds a field with its
accessors and helpers, unless its target is unresolved or its kind has no members. -/
def partOf (s : Settings) (a : Analysis) (r : Relationship) : Part :=
  if r.kind = .inheritance then
    { imports := r.inheritanceImports s.persistenceNamespace
      annotations := r.inheritanceAnnotations }
  else if !r.hasTarget then {}
  else match AccessorStyle.of? r.kind with
  | none => {}
  | some style =>
    let l := Link.new s r (a.findInverse? r)
    { imports := l.imports s.persistenceNamespace
      fields := [l.fieldDecl]
      methods := l.accessors style ++ (if s.generateHelpers then l.helpers else [])
      guarded := l.policy.circularGuard }

def partsOf (s : Settings) (a : Analysis) (entity : String) : List Part :=
  (a.relationshipsOf entity).map (partOf s a)

/-- Validators go with entities that have fields. -/
def validated (s : Settings) (parts : List Part) : Bool :=
  s.generateValidation && parts.any (fun p => !p.fields.isEmpty)

def entityOf (s : Settings) (a : Analysis) (entity : String) : GeneratedEntity :=
  let parts := partsOf s a entity
  { entity := entity
    imports := Imports.sorted (parts.flatMap (·.imports))
    interfaces := if parts.any (·.guarded) then [guardInterface] else []
    annotations := parts.flatMap (·.annotations)
    fields := parts.flatMap (·.fields)
    methods := parts.flatMap (·.methods) ++
      (if validated s parts then Validators.methodsOf s a entity else []) }

def conflictsOf (s : Settings) (a : Analysis) (entity : String) : List Finding :=
  if validated s (partsOf s a entity) then Validators.findingsOf a entity else []

/-- Circular relationships whose target does not implement the guard. -/
def unguarded (a : Analysis) (es : List GeneratedEntity) : List Finding :=
  let guarded := (es.filter (·.implementsGuard)).map (·.entity)
  (a.relationships.filter (fun r => r.circular && !guarded.contains r.target)).map (fun r =>
    ⟨.warning,.circularWithoutGuard,r.source,some r.field,
      r.key.render ++ " is part of a reference cycle but " ++ r.targetSimple ++
        " does not implement " ++ guardInterface⟩)

/-- The guard stands beside the first entity that implements it, or else the first that checks
it. -/
def guardOf (es : List GeneratedEntity) : Option Guard :=
  ((es.find? (·.implementsGuard)).or (es.find? (·.referencesGuard))).map (fun e => ⟨e.package?⟩)

/-- An entity outside the guard's package imports it, if that package has a name. -/
def withGuardImport (g : Guard) (e : GeneratedEntity) : GeneratedEntity :=
  if e.referencesGuard && g.package.isSome && e.package? != g.package then
    { e with imports := Imports.sort (e.imports ++ [g.qualifiedName]) }
  else e

def ofAnalysis (s : Settings) (a : Analysis) : Synthesis :=
  let names := a.entities.map AnalyzedEntity.name
  let es := (names.map (entityOf s a)).filter (fun e => !e.isEmpty)
  let guard := guardOf es
  let es' := match guard with
    | some g => es.map (withGuardImport g)
    | none => es
  { entities := es'
    guard := guard
    findings := names.flatMap (conflictsOf s a) ++ unguarded a es ++ RecursionCheck.hazards es' }

end Synthesis

end EntityLink
