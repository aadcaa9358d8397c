namespace EntityLink.Java

inductive Visibility
  | publicAccess
  | protectedAccess
  /-- No modifier, for what the inverse side calls within the package. -/
  | packageAccess
  | privateAccess
  deriving DecidableEq, Repr

/-- The modifier, empty for package access. -/
def Visibility.keyword : Visibility → String
  | publicAccess => "public"
  | protectedAccess => "protected"
  | packageAccess => ""
  | privateAccess => "private"

/-- Expressions of accessor bodies. -/
inductive Expr
  | this
  | null
  | bool (value : Bool)
  | var (name : String)
  /-- A field access, `receiver.name`. -/
  | field (receiver : Expr) (name : String)
  /-- A call on a receiver, `receiver.method(arguments)`. -/
  | call (receiver : Expr) (method : String) (arguments : List Expr)
  /-- A call without a receiver, `method(arguments)`. -/
  | callBare (method : String) (arguments : List Expr)
  /-- A new object, `new Class<>(arguments)`; the class text holds the diamond, if there is one. -/
  | create (type : String) (arguments : List Expr)
  /-- The same reference, `left == right`. -/
  | same (left right : Expr)
  /-- Another reference, `left != right`. -/
  | notSame (left right : Expr)
  | not (operand : Expr)
  | and (operands : List Expr)
  | or (operands : List Expr)
  | instanceOf (operand : Expr) (type : String)
  deriving Inhabited

inductive Stmt
  | ifElse (condition : Expr) (onTrue onFalse : List Stmt)
  | ret (value : Option Expr)
  | assign (target value : Expr)
  | declare (type name : String) (value : Expr)
  | eval (expr : Expr)
  | forEach (type name : String) (iterable : Expr) (body : List Stmt)
  /-- A line comment. -/
  | comment (text : String)
  deriving Inhabited

/-- An annotation of generated code, with the text of its argument values. -/
structure AnnotationUse where
  name : String
  arguments : List (String × String) := []
  deriving DecidableEq, Repr

structure Param where
  type : String
  name : String
  deriving DecidableEq, Repr

/-- The role of a generated method. -/
inductive MethodKind
  | getter
  | setter
  | internalSetter
  | adder
  | internalAdder
  | remover
  | internalRemover
  | clearer
  | counter
  | predicate
  | orphanHook
  | validator
  deriving DecidableEq, Repr

namespace MethodKind

def all : List MethodKind :=
  [getter, setter, internalSetter, adder, internalAdder, remover, internalRemover, clearer,
    counter, predicate, orphanHook, validator]

/-- Mutators for any caller, which keep the inverse side in step. -/
def isPublicMutator : MethodKind → Bool
  | setter | adder | remover | clearer => true
  | _ => false

/-- Mutators that change the field of one object alone. -/
def isInternal : MethodKind → Bool
  | internalSetter | internalAdder | internalRemover => true
  | _ => false

end MethodKind

/-- A method; without a return type it is `void`. -/
structure Method where
  kind : MethodKind
  visibility : Visibility
  name : String
  doc : Option String := none
  annotations : List AnnotationUse := []
  returnType : Option String := none
  params : List Param := []
  body : List Stmt := []

structure FieldDecl where
  type : String
  name : String
  doc : Option String := none
  annotations : List AnnotationUse := []
  visibility : Visibility := .privateAccess
  initializer : Option Expr := none

namespace Expr

/-- A field of its own, `this.name`. -/
def thisField (name : String) : Expr :=
  field this name

/-- A call on itself, `this.method(arguments)`. -/
def callThis (method : String) (arguments : List Expr) : Expr :=
  call this method arguments

/-- A new object of inferred type arguments, `new Class<>(arguments)`. -/
def createDiamond (type : String) (arguments : List Expr) : Expr :=
  create (type ++ "<>") arguments

def isNull (e : Expr) : Expr :=
  same e null

def notNull (e : Expr) : Expr :=
  notSame e null

end Expr

namespace Stmt

/-- An `if` without `else`. -/
def when (condition : Expr) (body : List Stmt) : Stmt :=
  ifElse condition body []

/-- An early return, `if (condition) { return value; }`. -/
def returnIf (condition : Expr) (value : Option Expr) : Stmt :=
  when condition [ret value]

end Stmt

/-- A string literal: quotes and backslashes take a backslash. -/
def quote (s : String) : String :=
  "\"" ++ String.ofList (s.toList.flatMap
    (fun c => if c = '\\' then ['\\','\\'] else if c = '"' then ['\\','"'] else [c])) ++ "\""

end EntityLink.Java
