import EntityLink.Link.Single

namespace EntityLink.Link
open Java

/-- The collection behind its getter, which is never null. -/
def live (l : Link) : Expr :=
  .callThis l.names.getter []

def holds (l : Link) (element : Expr) : Expr :=
  .call l.live "contains" [element]

/-- A getter that creates the collection when it is first asked for. -/
def manyGetter (l : Link) : Method where
  kind := .getter
  visibility := .publicAccess
  name := l.names.getter
  returnType := some l.collectionType
  body := [
    .when (.isNull (.thisField l.field))
      [.assign (.thisField l.field) (.createDiamond l.collectionKind.implementation [])],
    .ret (some (.thisField l.field))]

/-- Clears the collection and adds the new elements one by one, from a copy. -/
def manySetter (l : Link) : Method where
  kind := .setter
  visibility := .publicAccess
  name := l.names.setter
  params := [⟨l.collectionType,l.valueParam⟩]
  body := [
    .returnIf (.same (.var l.valueParam) (.thisField l.field)) none,
    .eval (.callThis l.names.clearer []),
    .when (.notNull (.var l.valueParam)) [
      .forEach l.targetType l.elementParam (.createDiamond "ArrayList" [.var l.valueParam])
        [.eval (.callThis l.names.adder [.var l.elementParam])]]]

/-- Points an added element back at `this`. An element of a one-to-many first leaves the
collection of its previous owner. -/
def linkElement (l : Link) (i : Inverse) : List Stmt :=
  let element := Expr.var l.elementParam
  let previous := previousLocal i.field
  if i.collection then [.eval (.call element i.names.internalAdder [.this])]
  else [
    .declare l.sourceType previous (.call element i.names.getter []),
    .when (.and [.notNull (.var previous),.notSame (.var previous) .this])
      [.eval (.call (.var previous) l.names.internalRemover [element])],
    .eval (.call element i.names.internalSetter [.this])]

/-- Takes the reference back to `this` from an element that left. -/
def unlinkElement (l : Link) (i : Inverse) : Stmt :=
  let element := Expr.var l.elementParam
  if i.collection then .eval (.call element i.names.internalRemover [.this])
  else .when (.same (.call element i.names.getter []) .this)
    [.eval (.call element i.names.internalSetter [.null])]

def adder (l : Link) : Method where
  kind := .adder
  visibility := .publicAccess
  name := l.names.adder
  doc := some (match l.inverse with
    | some i =>
      "Adds " ++ l.elementParam ++ " and sets its " ++ i.field ++ " to this " ++ l.sourceType ++
        ".\nReturns false when " ++ l.elementParam ++ " is null or already present."
    | none =>
      "Adds " ++ l.elementParam ++ "; returns false when it is null or already present.")
  returnType := some "boolean"
  params := [⟨l.targetType,l.elementParam⟩]
  body :=
    [.returnIf (.or [.isNull (.var l.elementParam),l.holds (.var l.elementParam)])
        (some (.bool false)),
      .eval (.call l.live "add" [.var l.elementParam])] ++
    (match l.inverse with
      | some i => l.linkElement i
      | none => []) ++
    [.ret (some (.bool true))]

/-- What follows for each element that left the collection. -/
def afterRemoval (l : Link) : List Stmt :=
  (match l.inverse with
    | some i => [l.unlinkElement i]
    | none => []) ++
    (if l.policy.orphanRemoval then
      [.eval (.callThis l.names.orphanHook [.var l.elementParam])] else [])

def remover (l : Link) : Method where
  kind := .remover
  visibility := .publicAccess
  name := l.names.remover
  returnType := some "boolean"
  params := [⟨l.targetType,l.elementParam⟩]
  body :=
    [.returnIf (.or [.isNull (.var l.elementParam),.not (l.holds (.var l.elementParam))])
        (some (.bool false)),
      .eval (.call l.live "remove" [.var l.elementParam])] ++
    l.afterRemoval ++ [.ret (some (.bool true))]

/-- Clears the collection; what follows a removal is done for a copy of its elements. -/
def clearer (l : Link) : Method where
  kind := .clearer
  visibility := .publicAccess
  name := l.names.clearer
  doc := some ("Removes every element of " ++ l.field ++ ".")
  body :=
    let clear := Stmt.eval (.call l.live "clear" [])
    let copy := "removed" ++ Text.capitalize l.field
    if l.afterRemoval.isEmpty then [clear]
    else [
      .declare ("List<" ++ l.targetType ++ ">") copy (.createDiamond "ArrayList" [l.live]),
      clear,
      .forEach l.targetType l.elementParam (.var copy) l.afterRemoval]

def internalAdder (l : Link) : Method where
  kind := .internalAdder
  visibility := .packageAccess
  name := l.names.internalAdder
  params := [⟨l.targetType,l.elementParam⟩]
  body := [
    .when (.and [.notNull (.var l.elementParam),.not (l.holds (.var l.elementParam))])
      [.eval (.call l.live "add" [.var l.elementParam])]]

def internalRemover (l : Link) : Method where
  kind := .internalRemover
  visibility := .packageAccess
  name := l.names.internalRemover
  params := [⟨l.targetType,l.elementParam⟩]
  body := [
    .when (.notNull (.thisField l.field))
      [.eval (.call (.thisField l.field) "remove" [.var l.elementParam])]]

def manyInternalSetter (l : Link) : Method where
  kind := .internalSetter
  visibility := .packageAccess
  name := l.names.internalSetter
  doc := some "Replaces the collection reference without touching the inverse side."
  params := [⟨l.collectionType,l.valueParam⟩]
  body := [.assign (.thisField l.field) (.var l.valueParam)]

/-- The accessors of a collection without an inverse side. -/
def collectionAccessors (l : Link) : List Method :=
  [l.manyGetter,l.manySetter,l.adder,l.remover,l.clearer]

/-- The accessors of a field that holds many entities. -/
def manyAccessors (l : Link) : List Method :=
  l.collectionAccessors ++
    (if l.inverse.isSome then [l.internalAdder,l.internalRemover,l.manyInternalSetter] else []) ++
    (if l.policy.orphanRemoval then [l.orphanHook l.elementParam] else [])

end EntityLink.Link
