import EntityLink.Java.Heap
import EntityLink.Java.Tree

namespace EntityLink.Java

/-- The classes that running code belongs to: their methods, and the interfaces they implement. -/
structure Program where
  method? (type name : String) : Option Method
  implements (type interface : String) : Bool

/-- Running code changes a heap, or stops at a fault. -/
abbrev Exec := StateT Heap (Except Fault)

namespace Exec

/-- The object that a value refers to. -/
def object (v : Value) : Exec Object := do
  match v with
  | .ref address =>
    match (← get).get? address with
    | some o => return o
    | none => throw (.notAnObject v)
  | _ => throw (.notAnObject v)

def create (o : Object) : Exec Value := do
  let h ← get
  set (h.push o)
  return .ref h.size

def bool : Value → Exec Bool
  | .bool b => return b
  | v => throw (.notABoolean v)

def field (v : Value) (name : String) : Exec Value := do
  match ← object v with
  | .entity _ fields => return fields name
  | .collection .. => throw .notAnEntity

def items (v : Value) : Exec (List Value) := do
  match ← object v with
  | .collection vs _ _ => return vs
  | .entity .. => throw .notACollection

def changes (v : Value) : Exec Nat := do
  match ← object v with
  | .collection _ _ n => return n
  | .entity .. => throw .notACollection

def replace (v : Value) (o : Object) : Exec Unit := do
  match v with
  | .ref address => modify (·.set address o)
  | _ => throw (.notAnObject v)

def assign (v : Value) (name : String) (value : Value) : Exec Unit := do
  match ← object v with
  | .entity type fields =>
    replace v (.entity type (fun n => if n = name then value else fields n))
  | .collection .. => throw .notAnEntity

end Exec

/-- A call on a collection: its result and what the collection then holds, if it changes. All
comparisons are of references. -/
def collectionCall (items : List Value) (unique : Bool) (method : String)
    (arguments : List Value) : Except Fault (Value × Option (List Value)) :=
  match method, arguments with
  | "add", [v] =>
    if unique && items.contains v then .ok (.bool false,none)
    else .ok (.bool true,some (items ++ [v]))
  | "remove", [v] =>
    if items.contains v then .ok (.bool true,some (items.erase v)) else .ok (.bool false,none)
  | "contains", [v] => .ok (.bool (items.contains v),none)
  | "clear", [] => .ok (.null,some [])
  | "size", [] => .ok (.int items.length,none)
  | "isEmpty", [] => .ok (.bool items.isEmpty,none)
  | _, _ => .error (.unknownMethod method)

/-- A call on an object. `run` runs the method of an entity. -/
def dispatch (p : Program) (run : Value → Method → List Value → Exec Value) (receiver : Value)
    (name : String) (arguments : List Value) : Exec Value := do
  match ← Exec.object receiver with
  | .entity type _ =>
    match p.method? type name with
    | some m => run receiver m arguments
    | none => throw (.unknownMethod name)
  | .collection items unique changes =>
    let (result,changed) ← collectionCall items unique name arguments
    if let some items := changed then
      Exec.replace receiver (.collection items unique (changes + 1))
    return result

/-- What code sees besides the heap. -/
structure Frame where
  self : Value
  locals : List (String × Value)

/-- Whether running goes on behind a statement, or a method has returned. -/
inductive Flow
  | next (locals : List (String × Value))
  | done (value : Value)

/-- Sets refuse elements that they hold. -/
def isSetClass (type : String) : Bool :=
  "Set<>".toList.isSuffixOf type.toList

section

variable (p : Program) (call : Value → String → List Value → Exec Value)

mutual

/-- The value of an expression. The operands of `and` and `or` are looked at one after another
until the result is known. -/
def Expr.eval (f : Frame) : Expr → Exec Value
  | .this => return f.self
  | .null => return .null
  | .bool b => return .bool b
  | .var n =>
    match f.locals.lookup n with
    | some v => return v
    | none => throw (.unboundLocal n)
  | .field e n => do Exec.field (← e.eval f) n
  | .call e m as => do call (← e.eval f) m (← evalAll f as)
  | .callBare m as => do call f.self m (← evalAll f as)
  | .create t [] => Exec.create (.collection [] (isSetClass t) 0)
  | .create t [e] => do Exec.create (.collection (← Exec.items (← e.eval f)) (isSetClass t) 0)
  | .create t _ => throw (.badCreation t)
  | .same a b => do return .bool ((← a.eval f) == (← b.eval f))
  | .notSame a b => do return .bool ((← a.eval f) != (← b.eval f))
  | .not e => do return .bool !(← Exec.bool (← e.eval f))
  | .and es => do return .bool (← evalEvery f es)
  | .or es => do return .bool (← evalSome f es)
  | .instanceOf e t => do
    match ← e.eval f with
    | .null => return .bool false
    | v =>
      match ← Exec.object v with
      | .entity type _ => return .bool (p.implements type t)
      | .collection .. => return .bool false

def evalAll (f : Frame) : List Expr → Exec (List Value)
  | [] => return []
  | e :: es => do return (← e.eval f) :: (← evalAll f es)

def evalEvery (f : Frame) : List Expr → Exec Bool
  | [] => return true
  | e :: es => do if ← Exec.bool (← e.eval f) then evalEvery f es else return false

def evalSome (f : Frame) : List Expr → Exec Bool
  | [] => return false
  | e :: es => do if ← Exec.bool (← e.eval f) then return true else evalSome f es

end

/-- Runs a body for one item after another. The collection they come from must stay as it is. -/
def iterate (body : List (String × Value) → Exec Flow) (name : String) (source : Value)
    (changes : Nat) : List Value → List (String × Value) → Exec Flow
  | [], locals => return .next locals
  | v :: vs, locals => do
    match ← body ((name,v) :: locals) with
    | .done result => return .done result
    | .next locals =>
      if (← Exec.changes source) = changes then iterate body name source changes vs locals
      else throw .changedWhileIterated

mutual

def Stmt.exec (f : Frame) : Stmt → Exec Flow
  | .ifElse c t e => do
    if ← Exec.bool (← c.eval p call f) then execAll f t else execAll f e
  | .ret none => return .done .null
  | .ret (some e) => do return .done (← e.eval p call f)
  | .assign (.var n) e => do return .next ((n,← e.eval p call f) :: f.locals)
  | .assign (.field t n) e => do
    let v ← e.eval p call f
    Exec.assign (← t.eval p call f) n v
    return .next f.locals
  | .assign _ _ => throw .badTarget
  | .declare _ n e => do return .next ((n,← e.eval p call f) :: f.locals)
  | .eval e => do
    let _ ← e.eval p call f
    return .next f.locals
  | .forEach _ n e body => do
    let source ← e.eval p call f
    let items ← Exec.items source
    iterate (fun locals => execAll { f with locals := locals } body) n source
      (← Exec.changes source) items f.locals
  | .comment _ => return .next f.locals

def execAll (f : Frame) : List Stmt → Exec Flow
  | [] => return .next f.locals
  | s :: ss => do
    match ← s.exec f with
    | .done v => return .done v
    | .next locals => execAll { f with locals := locals } ss

end

end

namespace Program

/-- Runs a method, whose calls may nest to a given depth. A method that returns nothing gives
null. -/
def run (p : Program) : Nat → Value → Method → List Value → Exec Value
  | 0, _, _, _ => throw .tooDeep
  | depth + 1, self, m, arguments => do
    if m.params.length ≠ arguments.length then throw (.unknownMethod m.name)
    let f : Frame := ⟨self,(m.params.map Param.name).zip arguments⟩
    match ← execAll p (dispatch p (run p depth)) f m.body with
    | .done v => return v
    | .next _ => return .null

/-- How deep calls between entities may nest. Synchronized members stay far below it. -/
def depth : Nat := 16

def call (p : Program) (receiver : Value) (name : String) (arguments : List Value) : Exec Value :=
  dispatch p (p.run depth) receiver name arguments

end Program

end EntityLink.Java
