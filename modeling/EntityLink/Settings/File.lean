import EntityLink.Toml
import EntityLink.Settings.Environment

namespace EntityLink.Settings
open Datum

def asMode : Datum → Except Fault ValidationMode
  | .text s => ((ValidationMode.ofWord? s).map Except.ok).getD (.error .malformed)
  | _ => .error .malformed

def asNamespace : Datum → Except Fault PersistenceNamespace
  | .text s => ((PersistenceNamespace.ofWord? s).map Except.ok).getD (.error .malformed)
  | _ => .error .malformed

def asCount : Datum → Except Fault Nat
  | .int n => if 0 ≤ n ∧ n ≤ maxCount then .ok n.toNat else .error .malformed
  | _ => .error .malformed

/-- Takes one entry of a settings file into the overlay; a key that is no setting is a fault. -/
def Overlay.read (o : Overlay) (entry : String × Datum) : Except Fault Overlay :=
  match entry.1 with
  | "validation_mode" => do return { o with validationMode := some (← asMode entry.2) }
  | "infer_inverse_by_name" => do return { o with inferInverseByName := some (← asBool entry.2) }
  | "detect_cycles" => do return { o with detectCycles := some (← asBool entry.2) }
  | "circular_reference_guard" => do return { o with circularGuard := some (← asBool entry.2) }
  | "generate_helpers" => do return { o with generateHelpers := some (← asBool entry.2) }
  | "generate_validation" => do return { o with generateValidation := some (← asBool entry.2) }
  | "persistence_namespace" => do
    return { o with persistenceNamespace := some (← asNamespace entry.2) }
  | "indent_width" => do return { o with indentWidth := some (← asCount entry.2) }
  | _ => .error .malformed

def Overlay.ofEntries (entries : List (String × Datum)) : Except Fault Overlay :=
  entries.foldlM Overlay.read {}

/-- The overlay that a settings file holds, unless it does not read as one. -/
def Overlay.parse? (text : String) : Option Overlay :=
  (Toml.parse? text).bind (fun es => (Overlay.ofEntries es).toOption)

/-- Lays a file over settings. A file that does not read leaves them as they are. -/
def merge? (read : String → Option Overlay) (s : Settings) (text : String) : Option Settings :=
  (read text).map s.overlay

/-- One layer of settings: the text of a file, or environment variables. -/
inductive Layer
  | file (text : String)
  | environment (pairs : List (String × String))
  deriving DecidableEq, Repr

/-- The settings after one more layer; a file that does not read counts for nothing. -/
def withLayer (read : String → Option Overlay) (s : Settings) : Layer → Settings
  | .file source => (s.merge? read source).getD s
  | .environment vs => s.withVariables vs

end EntityLink.Settings
