import EntityLink.Settings
import EntityLink.Text.Split

namespace EntityLink.Settings
open Text

/-- The largest count that a setting takes: 64 bits. -/
def maxCount : Nat :=
  18446744073709551615

def parseBool? : String → Option Bool
  | "true" => some true
  | "false" => some false
  | _ => none

/-- A count in decimal digits, a plus sign before them allowed. -/
def parseCount? (text : String) : Option Nat :=
  let digits := (stripStart? ['+'] text.toList).getD text.toList
  if digits.isEmpty || !digits.all Char.isDigit then none
  else
    let n := digits.foldl (fun n c => n * 10 + (c.toNat - 48)) 0
    if n ≤ maxCount then some n else none

/-- What one environment variable sets; nothing when its name is no setting's or its value
does not read. -/
def Overlay.ofVariable (key value : String) : Overlay :=
  let text := trim value
  match key with
  | "RELSYNC_VALIDATION_MODE" => { validationMode := (ValidationMode.parse text).toOption }
  | "RELSYNC_INFER_INVERSE_BY_NAME" => { inferInverseByName := parseBool? text }
  | "RELSYNC_DETECT_CYCLES" => { detectCycles := parseBool? text }
  | "RELSYNC_PERSISTENCE_NAMESPACE" =>
    { persistenceNamespace := (PersistenceNamespace.parse text).toOption }
  | "RELSYNC_INDENT_WIDTH" => { indentWidth := parseCount? text }
  | _ => {}

/-- Lays environment variables over settings, one after another. -/
def withVariables (s : Settings) (environment : List (String × String)) : Settings :=
  environment.foldl (fun s v => s.overlay (Overlay.ofVariable v.1 v.2)) s

end EntityLink.Settings
