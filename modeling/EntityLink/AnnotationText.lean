import EntityLink.Text.Dotted
import EntityLink.Text.Pattern

namespace EntityLink
open Text

/-- An annotation as source text writes it: a name, possibly qualified, and the raw text
between its parentheses, empty for a marker. -/
structure AnnotationText where
  name : String
  arguments : String
  deriving DecidableEq, Repr

namespace AnnotationText

/-- The pattern `[A-Za-z_][\w.]*`, a dotted name. -/
def namePattern : Pattern :=
  .seq (.one (.either (.range 'A' 'Z') (.either (.range 'a' 'z') (.exactly '_'))))
    (.many (.either .word (.exactly '.')))

/-- The pattern `\((.*)\)`, which ends with the last parenthesis that it can. -/
def argumentsPattern : Pattern :=
  .all [.literal ['('],.group 2 (.many .any),.literal [')']]

/-- The pattern `(?s)^\s*@\s*([A-Za-z_][\w.]*)\s*(?:\((.*)\))?\s*$`. -/
def annotationPattern : Pattern :=
  .all [.start,.many .blank,.literal ['@'],.many .blank,.group 1 namePattern,.many .blank,
    .optional argumentsPattern,.many .blank,.finish]

/-- The annotation that the groups of a match stand for. -/
def ofGroups? (groups : Groups) : Option AnnotationText := do
  let name ← groups.lookup 1
  some ⟨String.ofList name,String.ofList (((groups.lookup 2).map trimChars).getD [])⟩

/-- Reads `@Name` or `@Name(arguments)` with a matcher for the pattern. -/
def parseWith? (m : Matcher) (text : String) : Option AnnotationText :=
  (m.captures? annotationPattern text.toList).bind ofGroups?

/-- Reads `@Name` or `@Name(arguments)`. -/
def parse? (text : String) : Option AnnotationText :=
  parseWith? .backtracking text

def simple (a : AnnotationText) : String :=
  simpleName a.name

/-- Annotations go by their simple name. -/
def named (a : AnnotationText) (name : String) : Bool :=
  a.simple == name

def render (a : AnnotationText) : String :=
  if a.arguments = "" then "@" ++ a.name else "@" ++ a.name ++ "(" ++ a.arguments ++ ")"

end AnnotationText

end EntityLink
