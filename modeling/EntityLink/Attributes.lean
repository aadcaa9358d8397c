import EntityLink.AnnotationText
import EntityLink.Text.Split

namespace EntityLink
open Text

/-- The `name = value` pairs of one annotation's arguments, in the order written. Values stay
raw text until they are asked for, so a malformed one spoils no other. -/
structure Attributes where
  entries : List (String × String)
  deriving DecidableEq, Repr

namespace Attributes

/-- Where a scan of argument text stands: inside or outside a string, after a backslash of
one, and how deeply nested. -/
inductive Scan
  | outside (depth : Nat)
  | quoted (depth : Nat)
  | escaped (depth : Nat)
  deriving DecidableEq, Repr

namespace Scan

def step : Scan → Char → Scan
  | outside d, c =>
    if c = '"' then quoted d
    else if c = '(' ∨ c = '{' then outside (d + 1)
    else if c = ')' ∨ c = '}' then outside (d - 1)
    else outside d
  | quoted d, c => if c = '\\' then escaped d else if c = '"' then outside d else quoted d
  | escaped d, _ => quoted d

/-- Parts end at the commas outside every string and bracket. -/
def cuts : Scan → Char → Bool
  | outside d, c => c == ',' && d == 0
  | _, _ => false

end Scan

/-- The trimmed parts between outer commas, blank ones left out. -/
def parts (cs : List Char) : List (List Char) :=
  ((splitScan Scan.step Scan.cuts (.outside 0) cs).map trimChars).filter (fun p => !p.isEmpty)

/-- An ASCII identifier. -/
def isKey : List Char → Bool
  | [] => false
  | c :: cs => !c.isDigit && (c :: cs).all (fun x => x.isAlphanum || x == '_')

/-- A part is an assignment when an identifier stands before its first `=`. Any other part is
the whole value of `value`. -/
def entryOf (part : List Char) : String × String :=
  match splitFirst? '=' part with
  | some (name,value) =>
    if isKey (trimChars name) then
      (String.ofList (trimChars name),String.ofList (trimChars value))
    else ("value",String.ofList part)
  | none => ("value",String.ofList part)

def parse (arguments : String) : Attributes :=
  ⟨(parts arguments.toList).map entryOf⟩

/-- The raw value of a key; the last assignment counts. -/
def raw? (a : Attributes) (key : String) : Option String :=
  a.entries.reverse.lookup key

/-- A text without the quotes around it, if it has both. -/
def unquote (cs : List Char) : List Char :=
  let t := trimChars cs
  ((stripStart? ['"'] t).bind (stripEnd? ['"'])).getD t

/-- A string attribute without quotes. A blank one counts as absent. -/
def string? (a : Attributes) (key : String) : Option String := do
  let raw ← a.raw? key
  let value := trimChars (unquote raw.toList)
  if value.isEmpty then none else some (String.ofList value)

/-- A boolean attribute; only the two literals count. -/
def boolean? (a : Attributes) (key : String) : Option Bool := do
  let raw ← a.raw? key
  if trim raw = "true" then some true
  else if trim raw = "false" then some false
  else none

/-- The elements of an array attribute, or a single value as its only element. -/
def list (a : Attributes) (key : String) : List String :=
  match a.raw? key with
  | none => []
  | some raw =>
    let t := trimChars raw.toList
    let inner := ((stripStart? ['{'] t).bind (stripEnd? ['}'])).getD t
    (((parts inner).map (fun p => trimChars (unquote p))).filter (fun p => !p.isEmpty)).map
      String.ofList

/-- The pattern `^([A-Za-z_][\w.]*)\s*\.\s*class$`. -/
def classLiteralPattern : Pattern :=
  .all [.start,.group 1 AnnotationText.namePattern,.many .blank,.literal ['.'],.many .blank,
    .literal "class".toList,.finish]

/-- The type that a class literal such as `Employee.class` names. -/
def classLiteral? (a : Attributes) (key : String) : Option String := do
  let raw ← a.raw? key
  let groups ← Matcher.backtracking.captures? classLiteralPattern (trimChars raw.toList)
  (groups.lookup 1).map String.ofList

/-- The annotations nested in an attribute; elements of another form are passed over. -/
def nested (a : Attributes) (key : String) : List AnnotationText :=
  (a.list key).filterMap AnnotationText.parse?

end Attributes

def AnnotationText.attributes (a : AnnotationText) : Attributes :=
  Attributes.parse a.arguments

end EntityLink
