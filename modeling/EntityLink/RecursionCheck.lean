import EntityLink.Finding
import EntityLink.GeneratedEntity
import EntityLink.Java.Walk

namespace EntityLink
open Java

/-- The method that an expression calls on an object other than `this`. -/
def Java.Expr.foreignCallee? : Expr → Option String
  | .call .this _ _ => none
  | .call _ m _ => some m
  | _ => none

namespace RecursionCheck

/-- The names of all public mutators. -/
def mutatorNames (es : List GeneratedEntity) : List String :=
  (es.flatMap (·.methods)).filterMap (fun m => if m.kind.isPublicMutator then some m.name else none)

def foreignCallees (m : Method) : List String :=
  (exprsAll m.body).filterMap Expr.foreignCallee?

def hazard (e : GeneratedEntity) (m : Method) (callee : String) : Finding :=
  ⟨.error,.recursionHazard,e.entity,some m.name,
    "public mutator calls public mutator '" ++ callee ++ "' on another object"⟩

/-- The calls in public mutators by which one mutator could run into another without end: those
of a public mutator on another object. -/
def hazards (es : List GeneratedEntity) : List Finding :=
  es.flatMap (fun e =>
    (e.methods.filter (fun m => m.kind.isPublicMutator)).flatMap (fun m =>
      ((foreignCallees m).filter (fun c => (mutatorNames es).contains c)).map (hazard e m)))

end RecursionCheck

end EntityLink
