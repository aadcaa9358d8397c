import EntityLink.Link
import EntityLink.Java.Tree

namespace EntityLink.Link
open Java

def singleGetter (l : Link) : Method where
  kind := .getter
  visibility := .publicAccess
  name := l.names.getter
  returnType := some l.targetType
  body := [.ret (some (.thisField l.field))]

/-- A setter for values that have no inverse side. -/
def plainSetter (l : Link) : Method where
  kind := .setter
  visibility := .publicAccess
  name := l.names.setter
  params := [⟨l.targetType,l.valueParam⟩]
  body := [.assign (.thisField l.field) (.var l.valueParam)]

/-- Takes `this` out of what `owner` holds, through its internal mutators. -/
def detach (i : Inverse) (owner : Expr) : Expr :=
  if i.collection then .call owner i.names.internalRemover [.this]
  else .call owner i.names.internalSetter [.null]

/-- One-to-one: the object that the new value was linked to lets go of it. -/
def releaseDisplaced (l : Link) (i : Inverse) : Stmt :=
  let value := l.valueParam
  let displaced := "displaced" ++ l.sourceType
  .when (.notNull (.var value)) [
    .declare l.sourceType displaced (.call (.var value) i.names.getter []),
    .when (.and [.notNull (.var displaced),.notSame (.var displaced) .this]) [
      .eval (.call (.var displaced) l.names.internalSetter [.null])]]

/-- Links the new value back to `this` unless it is already. -/
def attach (l : Link) (i : Inverse) : Stmt :=
  let value := l.valueParam
  let held := Expr.call (.var value) i.names.getter []
  if i.collection then
    .when (.and [.notNull (.var value),.not (.call held "contains" [.this])])
      [.eval (.call (.var value) i.names.internalAdder [.this])]
  else
    .when (.and [.notNull (.var value),.notSame held .this])
      [.eval (.call (.var value) i.names.internalSetter [.this])]

/-- The statements of a setter that keeps the inverse side in step: the previous value lets go,
the field changes, the new value links back, and an orphan is told. -/
def singleSetterBody (l : Link) : List Stmt :=
  let value := l.valueParam
  let previous := previousLocal l.field
  let keep := if l.inverse.isSome || l.policy.orphanRemoval then
      [Stmt.declare l.targetType previous (.thisField l.field)] else []
  let release := match l.inverse with
    | none => []
    | some i =>
      .when (.notNull (.var previous)) [.eval (detach i (.var previous))] ::
        (if l.kind = .oneToOne ∧ i.collection = false then [releaseDisplaced l i] else [])
  let link := match l.inverse with
    | none => []
    | some i => [attach l i]
  let orphan := if l.policy.orphanRemoval then
      [Stmt.when (.notNull (.var previous))
        [.eval (.callThis l.names.orphanHook [.var previous])]] else []
  .returnIf (.same (.thisField l.field) (.var value)) none ::
    (keep ++ release ++ [.assign (.thisField l.field) (.var value)] ++ link ++ orphan)

def singleSetter (l : Link) : Method where
  kind := .setter
  visibility := .publicAccess
  name := l.names.setter
  doc := some (match l.inverse with
    | some i =>
      "Sets " ++ l.field ++ " and keeps " ++ l.targetType ++ "." ++ i.field ++ " in sync."
    | none => "Sets " ++ l.field ++ ".")
  params := [⟨l.targetType,l.valueParam⟩]
  body := l.singleSetterBody

def singleInternalSetter (l : Link) : Method where
  kind := .internalSetter
  visibility := .packageAccess
  name := l.names.internalSetter
  doc := some "Assigns the field only; called by the inverse side."
  params := [⟨l.targetType,l.valueParam⟩]
  body := [.assign (.thisField l.field) (.var l.valueParam)]

/-- A method to override for what becomes of an orphan. -/
def orphanHook (l : Link) (param : String) : Method where
  kind := .orphanHook
  visibility := .protectedAccess
  name := l.names.orphanHook
  doc := some ("Called after " ++ l.field ++
    " no longer references the value; orphan removal deletes it on flush.")
  params := [⟨l.targetType,param⟩]
  body := [.comment "override to release resources held by the orphan"]

/-- The accessors of a field that holds one entity. -/
def singleAccessors (l : Link) : List Method :=
  [l.singleGetter,l.singleSetter] ++
    (if l.inverse.isSome then [l.singleInternalSetter] else []) ++
    (if l.policy.orphanRemoval then [l.orphanHook l.valueParam] else [])

end EntityLink.Link
