import EntityLink.Distinct
import EntityLink.Settings

namespace EntityLink.Imports

/-- The qualified name of a mapping annotation or one of its constants. -/
def persistence (ns : PersistenceNamespace) (name : String) : String :=
  ns.package ++ "." ++ name

def javaUtil (name : String) : String :=
  "java.util." ++ name

/-- Import lists are in the order of their code points. -/
def sort (names : List String) : List String :=
  names.mergeSort (fun a b => !decide (b < a))

/-- Every name once, sorted. -/
def sorted (names : List String) : List String :=
  sort (distinct names)

end EntityLink.Imports
