import EntityLink.Java.Printer
import EntityLink.Synthesis

namespace EntityLink
open Text Java

/-- One generated file, named within the output directory. -/
structure SourceFile where
  name : String
  contents : String
  deriving DecidableEq, Repr

/-- An analysis together with what was generated from it. -/
structure Generation where
  analysis : Analysis
  synthesis : Synthesis

/-- The class that holds the members of an entity. -/
def GeneratedEntity.render (width : Nat) (e : GeneratedEntity) : String :=
  let package := match e.package? with
    | some package => "package " ++ package ++ ";\n\n"
    | none => ""
  let imports := String.join (e.imports.map (fun i => "import " ++ i ++ ";\n")) ++
    (if e.imports.isEmpty then "" else "\n")
  let interfaces :=
    if e.interfaces.isEmpty then "" else " implements " ++ join ", " e.interfaces
  let members := e.fields.map (FieldDecl.render width 1) ++ e.methods.map (Method.render width 1)
  package ++ imports ++ renderAnnotations "" e.annotations ++
    "public class " ++ e.simple ++ interfaces ++ " \x7b\n" ++
    String.join (members.map ("\n" ++ ·)) ++ "\x7d\n"

/-- The declaration of the guard interface. -/
def Guard.render (g : Guard) : String :=
  let package := match g.package with
    | some package => "package " ++ package ++ ";\n\n"
    | none => ""
  package ++ "/** Marks entities that take part in a reference cycle. */\npublic interface " ++
    guardInterface ++ " \x7b\n\x7d\n"

/-- One file for each entity, and one for the guard behind them. -/
def Synthesis.files (width : Nat) (s : Synthesis) : List SourceFile :=
  s.entities.map (fun e => ⟨e.simple ++ ".relationships.java",e.render width⟩) ++
    (s.guard.map (fun g => SourceFile.mk (guardInterface ++ ".java") g.render)).toList

namespace Generation

def ofCatalog (s : Settings) (c : Catalog) : Generation :=
  let a := Analysis.ofCatalog s c
  ⟨a,.ofAnalysis s a⟩

/-- Generation that a cancelled run does not finish. -/
def run (cancelled : Bool) (s : Settings) (c : Catalog) : Except Cancelled Generation := do
  let a ← Analysis.run cancelled s c
  return ⟨a,.ofAnalysis s a⟩

def hasErrors (g : Generation) : Bool :=
  Finding.anyError g.analysis.findings || Finding.anyError g.synthesis.findings

end Generation

end EntityLink
