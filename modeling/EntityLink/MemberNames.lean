import EntityLink.Noun

namespace EntityLink
open Text

/-- Words of the language that cannot name a parameter or a local variable. -/
def keywords : List String := [
  "abstract", "assert", "boolean", "break", "byte", "case", "catch", "char", "class", "const",
  "continue", "default", "do", "double", "else", "enum", "extends", "final", "finally", "float",
  "for", "goto", "if", "implements", "import", "instanceof", "int", "interface", "long",
  "native", "new", "package", "private", "protected", "public", "return", "short", "static",
  "strictfp", "super", "switch", "synchronized", "this", "throw", "throws", "transient", "try",
  "void", "volatile", "while"]

/-- A name that can stand for a parameter: keywords take `Value` behind them. -/
def safeIdentifier (name : String) : String :=
  if keywords.contains name then name ++ "Value" else name

/-- The names of everything generated for one field. -/
structure MemberNames where
  getter : String
  setter : String
  internalSetter : String
  adder : String
  remover : String
  internalAdder : String
  internalRemover : String
  clearer : String
  counter : String
  predicate : String
  orphanHook : String
  deriving DecidableEq, Repr

/-- A field `employees` gives `getEmployees`, `addEmployee`, `internalRemoveEmployee` and so on.
What works on one element of a collection is named in the singular. -/
def MemberNames.ofField (field : String) (collection : Bool) : MemberNames :=
  let whole := capitalize field
  let one := if collection then capitalize (Noun.singularize field) else whole
  { getter := "get" ++ whole
    setter := "set" ++ whole
    internalSetter := "internalSet" ++ whole
    adder := "add" ++ one
    remover := "remove" ++ one
    internalAdder := "internalAdd" ++ one
    internalRemover := "internalRemove" ++ one
    clearer := "clear" ++ whole
    counter := "count" ++ whole
    predicate := "has" ++ one
    orphanHook := "on" ++ one ++ "Orphaned" }

end EntityLink
