import EntityLink.Datum
import EntityLink.Text.Blank

namespace EntityLink
open Text

/-- How strictly recoverable problems are reported. -/
inductive ValidationMode
  | lenient
  | strict
  deriving DecidableEq, Repr

/-- The package that the mapping annotations come from. -/
inductive PersistenceNamespace
  | jakarta
  | javax
  deriving DecidableEq, Repr

def lowerAscii (s : String) : String :=
  String.ofList (s.toList.map Char.toLower)

namespace ValidationMode

def ofWord? : String → Option ValidationMode
  | "lenient" => some lenient
  | "strict" => some strict
  | _ => none

/-- Reads a mode in any case, blanks around it aside. -/
def parse (text : String) : Except String ValidationMode :=
  let word := lowerAscii (trim text)
  match ofWord? word with
  | some mode => .ok mode
  | none => .error ("unknown validation mode '" ++ word ++ "'")

end ValidationMode

namespace PersistenceNamespace

def ofWord? : String → Option PersistenceNamespace
  | "jakarta" => some jakarta
  | "javax" => some javax
  | _ => none

def parse (text : String) : Except String PersistenceNamespace :=
  let word := lowerAscii (trim text)
  match ofWord? word with
  | some ns => .ok ns
  | none => .error ("unknown persistence namespace '" ++ word ++ "'")

def package : PersistenceNamespace → String
  | jakarta => "jakarta.persistence"
  | javax => "javax.persistence"

end PersistenceNamespace

/-- What one run of analysis and generation goes by. -/
structure Settings where
  validationMode : ValidationMode := .lenient
  inferInverseByName : Bool := true
  detectCycles : Bool := true
  circularGuard : Bool := true
  generateHelpers : Bool := true
  generateValidation : Bool := true
  persistenceNamespace : PersistenceNamespace := .jakarta
  indentWidth : Nat := 4
  deriving DecidableEq, Repr

/-- Some of the settings. Where one is present it takes the place of the one below. -/
structure Settings.Overlay where
  validationMode : Option ValidationMode := none
  inferInverseByName : Option Bool := none
  detectCycles : Option Bool := none
  circularGuard : Option Bool := none
  generateHelpers : Option Bool := none
  generateValidation : Option Bool := none
  persistenceNamespace : Option PersistenceNamespace := none
  indentWidth : Option Nat := none
  deriving DecidableEq, Repr

def Settings.overlay (s : Settings) (o : Overlay) : Settings where
  validationMode := o.validationMode.getD s.validationMode
  inferInverseByName := o.inferInverseByName.getD s.inferInverseByName
  detectCycles := o.detectCycles.getD s.detectCycles
  circularGuard := o.circularGuard.getD s.circularGuard
  generateHelpers := o.generateHelpers.getD s.generateHelpers
  generateValidation := o.generateValidation.getD s.generateValidation
  persistenceNamespace := o.persistenceNamespace.getD s.persistenceNamespace
  indentWidth := o.indentWidth.getD s.indentWidth

end EntityLink
