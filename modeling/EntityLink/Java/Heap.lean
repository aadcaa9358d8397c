namespace EntityLink.Java

/-- What a variable or a field holds; objects are held by their address. -/
inductive Value
  | null
  | bool (value : Bool)
  | int (value : Int)
  | ref (address : Nat)
  deriving DecidableEq, Repr

inductive Object
  /-- An entity of a qualified type. A field is null until it is assigned. -/
  | entity (type : String) (fields : String → Value)
  /-- A collection with a count of the changes made to it. With `unique` it refuses an element
  that it holds. -/
  | collection (items : List Value) (unique : Bool) (changes : Nat)

/-- Why running code stops. -/
inductive Fault
  | notAnObject (value : Value)
  | notAnEntity
  | notACollection
  | notABoolean (value : Value)
  | unboundLocal (name : String)
  | unknownMethod (name : String)
  | badCreation (type : String)
  | badTarget
  | changedWhileIterated
  | tooDeep
  deriving DecidableEq, Repr

/-- All objects, each at its address. -/
structure Heap where
  objects : List Object := []

namespace Heap

def get? (h : Heap) (address : Nat) : Option Object :=
  h.objects[address]?

def set (h : Heap) (address : Nat) (o : Object) : Heap :=
  ⟨h.objects.set address o⟩

/-- Puts a new object behind all others. -/
def push (h : Heap) (o : Object) : Heap :=
  ⟨h.objects ++ [o]⟩

/-- The address that the next new object gets. -/
def size (h : Heap) : Nat :=
  h.objects.length

theorem get?_set {h : Heap} {a : Nat} {o : Object} (ha : a < h.size) (b : Nat) :
    (h.set a o).get? b = if b = a then some o else h.get? b := by
  simp only [get?,set,List.getElem?_set]
  by_cases hb : b = a
  · subst hb
    simpa [size] using ha
  · rw [if_neg (Ne.symm hb),if_neg hb]

theorem size_set {h : Heap} {a : Nat} {o : Object} : (h.set a o).size = h.size := by
  simp [size,set]

theorem get?_push {h : Heap} {o : Object} {a : Nat} (ha : a < h.size) :
    (h.push o).get? a = h.get? a := by
  simp only [get?,push]
  exact List.getElem?_append_left ha

theorem get?_push_size {h : Heap} {o : Object} : (h.push o).get? h.size = some o := by
  simp [get?,push,size]

theorem size_push {h : Heap} {o : Object} : (h.push o).size = h.size + 1 := by
  simp [size,push]

/-- What a field of an entity holds, null where there is no entity. -/
def field (h : Heap) (address : Nat) (name : String) : Value :=
  match h.get? address with
  | some (.entity _ fields) => fields name
  | _ => .null

/-- The elements of a collection, none where there is no collection. -/
def items (h : Heap) : Value → List Value
  | .ref address =>
    match h.get? address with
    | some (.collection vs _ _) => vs
    | _ => []
  | _ => []

/-- Whether `value` is what a field holds, or one of many if the field holds a collection. -/
def holds (h : Heap) (many : Bool) (address : Nat) (name : String) (value : Value) : Bool :=
  if many then (h.items (h.field address name)).contains value
  else value != .null && h.field address name == value

end Heap

end EntityLink.Java
