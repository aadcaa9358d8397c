import EntityLink.Attributes

namespace EntityLink
open Text

/-- What kind of persistent type a descriptor describes. Only entities are targets of
relationships. -/
inductive EntityKind
  | entity
  | mappedSuperclass
  | embeddable
  deriving DecidableEq, Repr

/-- One declared field. `joinAttributes` are extra columns of a many-to-many join table. -/
structure Field where
  name : String
  type : String
  column : Option String := none
  nullable : Bool := true
  isStatic : Bool := false
  annotations : List AnnotationText := []
  joinAttributes : List String := []
  deriving DecidableEq, Repr

/-- One persistent class, under its qualified name. -/
structure Entity where
  name : String
  kind : EntityKind := .entity
  table : Option String := none
  superclass : Option String := none
  annotations : List AnnotationText := []
  fields : List Field := []
  deriving DecidableEq, Repr

def Field.annotated? (f : Field) (name : String) : Option AnnotationText :=
  f.annotations.find? (·.named name)

def Entity.simple (e : Entity) : String :=
  simpleName e.name

def Entity.annotated? (e : Entity) (name : String) : Option AnnotationText :=
  e.annotations.find? (·.named name)

namespace Entity

/-- One step in putting entities together: those on entities act on the last entity, those on
fields on its last field. -/
inductive Step
  | entity (name : String)
  | superclass (name : String)
  | annotate (text : String)
  | field (name type : String)
  | annotateField (text : String)
  | joinAttributes (names : List String)
  deriving DecidableEq, Repr

inductive StepError
  | badText
  | nothingToChange
  deriving DecidableEq, Repr

def StepError.message : StepError → String
  | badText => "valid annotation text"
  | nothingToChange => "no entity or field to change"

/-- Changes the last element. -/
def onLast (f : α → Except StepError α) : List α → Except StepError (List α)
  | [] => .error .nothingToChange
  | [a] => do return [← f a]
  | a :: b :: as => do return a :: (← onLast f (b :: as))

def readMark (text : String) : Except StepError AnnotationText :=
  match AnnotationText.parse? text with
  | some a => .ok a
  | none => .error .badText

def onLastField (f : Field → Except StepError Field) (es : List Entity) :
    Except StepError (List Entity) :=
  onLast (fun e => do return { e with fields := ← onLast f e.fields }) es

def Step.apply (es : List Entity) : Step → Except StepError (List Entity)
  | entity name => .ok (es ++ [{ name := name }])
  | superclass name => onLast (fun e => .ok { e with superclass := some name }) es
  | annotate text =>
    onLast (fun e => do return { e with annotations := e.annotations ++ [← readMark text] }) es
  | field name type =>
    onLast (fun e => .ok { e with fields := e.fields ++ [{ name := name, type := type }] }) es
  | annotateField text =>
    onLastField (fun f => do
      return { f with annotations := f.annotations ++ [← readMark text] }) es
  | joinAttributes names => onLastField (fun f => .ok { f with joinAttributes := names }) es

def build (steps : List Step) : Except StepError (List Entity) :=
  steps.foldlM Step.apply []

end Entity

end EntityLink
