import EntityLink.Java.Tree
import EntityLink.Text.Dotted

namespace EntityLink
open Text Java

/-- The interface that marks the entities of a reference cycle. -/
def guardInterface : String := "CircularReferenceGuard"

/-- The validator that checks the members of cycles. -/
def circularValidator : String := "validateCircularDependencies"

/-- The generated members of one entity. -/
structure GeneratedEntity where
  entity : String
  imports : List String := []
  interfaces : List String := []
  annotations : List AnnotationUse := []
  fields : List FieldDecl := []
  methods : List Method := []

namespace GeneratedEntity

def simple (e : GeneratedEntity) : String :=
  simpleName e.entity

def package? (e : GeneratedEntity) : Option String :=
  Text.package? e.entity

def method? (e : GeneratedEntity) (name : String) : Option Method :=
  e.methods.find? (·.name == name)

def implementsGuard (e : GeneratedEntity) : Bool :=
  e.interfaces.contains guardInterface

/-- Implements the guard, or checks other objects against it. -/
def referencesGuard (e : GeneratedEntity) : Bool :=
  e.implementsGuard || (e.method? circularValidator).isSome

def isEmpty (e : GeneratedEntity) : Bool :=
  e.fields.isEmpty && e.methods.isEmpty && e.annotations.isEmpty

end GeneratedEntity

end EntityLink
