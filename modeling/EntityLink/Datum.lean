namespace EntityLink

/-- A tree of keyed data, as manifests and settings files hold it. `other` stands for a value
that no key takes, such as a fraction or a date. -/
inductive Datum
  | absent
  | bool (value : Bool)
  | int (value : Int)
  | text (value : String)
  | list (elements : List Datum)
  | table (entries : List (String × Datum))
  | other
  deriving Inhabited

namespace Datum

/-- Why data is not what its reader asks for. Annotation text is named, as the only fault
whose message tells what was read. -/
inductive Fault
  | malformed
  | badText (text : String)
  deriving DecidableEq, Repr

/-- The message of a fault, if it has one of its own. -/
def Fault.message? : Fault → Option String
  | malformed => none
  | badText s => some ("not an annotation: " ++ s)

def asText : Datum → Except Fault String
  | text s => .ok s
  | _ => .error .malformed

def asBool : Datum → Except Fault Bool
  | bool b => .ok b
  | _ => .error .malformed

/-- A text that may be left out. -/
def asText? : Datum → Except Fault (Option String)
  | absent => .ok none
  | d => (asText d).map some

def asList (read : Datum → Except Fault α) : Datum → Except Fault (List α)
  | list ds => ds.mapM read
  | _ => .error .malformed

/-- The entries of a record: by key, or as a list in the order of its keys. -/
def asRecord (keys : List String) : Datum → Except Fault (List (String × Datum))
  | table es => .ok es
  | list ds => if ds.length ≤ keys.length then .ok (keys.zip ds) else .error .malformed
  | _ => .error .malformed

end Datum

end EntityLink
