import EntityLink.Text.Dotted
import EntityLink.Text.Lines

namespace EntityLink
open Text

/-- The collection interfaces a relationship field may be declared as. -/
inductive CollectionKind
  | list
  | set
  | sortedSet
  | collection
  deriving DecidableEq, Repr

namespace CollectionKind

/-- The kind named by a raw type, qualified or not. -/
def ofRaw? (raw : String) : Option CollectionKind :=
  let name := simpleName raw
  if ["List","ArrayList","LinkedList"].contains name then some list
  else if ["Set","HashSet","LinkedHashSet"].contains name then some set
  else if ["SortedSet","NavigableSet","TreeSet"].contains name then some sortedSet
  else if ["Collection","Iterable"].contains name then some collection
  else none

/-- The interface that declarations use. -/
def interfaceName : CollectionKind → String
  | list => "List"
  | set => "Set"
  | sortedSet => "SortedSet"
  | collection => "Collection"

/-- The class that a field of this kind is created with. -/
def implementation : CollectionKind → String
  | list => "ArrayList"
  | set => "LinkedHashSet"
  | sortedSet => "TreeSet"
  | collection => "ArrayList"

end CollectionKind

/-- A declared type: a raw name and its generic arguments. -/
inductive TypeExpr
  | mk (raw : String) (arguments : List TypeExpr)

namespace TypeExpr

def raw : TypeExpr → String
  | mk r _ => r

def arguments : TypeExpr → List TypeExpr
  | mk _ as => as

/-- Nesting of angle brackets; a closing bracket too many leaves it at zero. -/
def nest (depth : Nat) (c : Char) : Nat :=
  if c = '<' then depth + 1 else if c = '>' then depth - 1 else depth

def isComma (depth : Nat) (c : Char) : Bool :=
  c == ',' && depth == 0

/-- The argument texts between two brackets: cut at the outer commas, an empty last one dropped. -/
def argumentTexts (inner : List Char) : List (List Char) :=
  let pieces := splitScan nest isComma 0 inner
  if pieces.getLast? = some [] then pieces.dropLast else pieces

theorem length_of_mem_argumentTexts {inner p : List Char} (h : p ∈ argumentTexts inner) :
    p.length ≤ inner.length := by
  simp only [argumentTexts] at h
  split at h
  · exact length_of_mem_splitScan (List.dropLast_subset _ h)
  · exact length_of_mem_splitScan h

/-- The text after an opening bracket, less one closing bracket at its end. -/
def unclosed (rest : List Char) : List Char :=
  (stripEnd? ['>'] rest).getD rest

theorem length_unclosed (rest : List Char) : (unclosed rest).length ≤ rest.length := by
  simp only [unclosed,stripEnd?]
  split
  · simp
  · simp

/-- Reads a type text without blanks. -/
def ofChars (cs : List Char) : TypeExpr :=
  match _h : cs.dropWhile (· != '<') with
  | [] => mk (String.ofList cs) []
  | _ :: rest =>
    mk (String.ofList (cs.takeWhile (· != '<')))
      ((argumentTexts (unclosed rest)).attach.map (fun p => ofChars p.1))
termination_by cs.length
decreasing_by
  have h₁ := length_of_mem_argumentTexts p.2
  have h₂ := length_unclosed rest
  have h₃ : (cs.dropWhile (· != '<')).length ≤ cs.length := (List.dropWhile_sublist _).length_le
  simp only [_h,List.length_cons] at h₃
  omega

/-- Spaces and tabs mean nothing in a type text. -/
def compact (cs : List Char) : List Char :=
  cs.filter (fun c => c != ' ' && c != '\t')

def parse (text : String) : TypeExpr :=
  ofChars (compact text.toList)

mutual

/-- The written form, arguments separated by a comma and a space. -/
def render : TypeExpr → String
  | mk r [] => r
  | mk r (a :: as) => r ++ "<" ++ join ", " (renderAll (a :: as)) ++ ">"

def renderAll : List TypeExpr → List String
  | [] => []
  | a :: as => render a :: renderAll as

end

def collectionKind? (t : TypeExpr) : Option CollectionKind :=
  CollectionKind.ofRaw? t.raw

/-- The raw name of the first argument, empty when there is none. -/
def firstArgument (t : TypeExpr) : String :=
  (t.arguments.head?.map raw).getD ""

end TypeExpr

end EntityLink
