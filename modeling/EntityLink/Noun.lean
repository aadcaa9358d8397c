import EntityLink.Text.LetterCase
import EntityLink.Text.Split

namespace EntityLink.Noun
open Text

/-- Plurals that no suffix rule gives, each with its singular. -/
def irregular : List (String × String) := [
  ("children","child"), ("people","person"), ("men","man"), ("women","woman"),
  ("mice","mouse"), ("geese","goose"), ("teeth","tooth"), ("feet","foot"),
  ("data","datum"), ("criteria","criterion")]

/-- Words whose two forms coincide. -/
def uncountable : List String :=
  ["staff", "equipment", "information", "series", "species", "news"]

/-- Plurals in `-ies` whose singular ends in `-ie`. -/
def ieSingulars : List String := [
  "movies", "cookies", "zombies", "calories", "rookies", "selfies", "goalies", "brownies",
  "neckties", "prairies", "pies", "ties", "lies"]

def isVowel (c : Char) : Bool :=
  c == 'a' || c == 'e' || c == 'i' || c == 'o' || c == 'u'

/-- ASCII letters in lower case, all else as it stands. -/
def lower (cs : List Char) : List Char :=
  cs.map Char.toLower

/-- The last camel-case word begins at the last ASCII capital; without one it is the whole name. -/
def lastWord (cs : List Char) : List Char × List Char :=
  match cs.reverse.dropWhile (fun c => !c.isUpper) with
  | [] => ([],cs)
  | u :: head => (head.reverse,u :: (cs.reverse.takeWhile (fun c => !c.isUpper)).reverse)

/-- The replacement, with a capital where `word` has one. -/
def matchCase (word : List Char) (replacement : String) : List Char :=
  match word with
  | c :: _ => if c.isUpper then (capitalize replacement).toList else replacement.toList
  | [] => replacement.toList

def endsWith (e : String) (cs : List Char) : Bool :=
  e.toList.isSuffixOf cs

def cut (n : Nat) (cs : List Char) : List Char :=
  cs.take (cs.length - n)

/-- The suffix rules from a plural back to its singular, first match first. -/
def singularBySuffix (cs : List Char) : List Char :=
  let low := lower cs
  match stripEnd? "uses".toList low with
  | some stem => cut (if stem.getLast?.any (fun c => !isVowel c) then 2 else 1) cs
  | none =>
    if ["sses","shes","ches","xes","zes"].any (endsWith · low) then cut 2 cs
    else if ["ss","us","is"].any (endsWith · low) then cs
    else if endsWith "s" cs && 1 < cs.length then cut 1 cs
    else cs

/-- The singular of a collection's field name. Only the suffix that changes loses its case;
irregular and uncountable nouns are looked up by the last camel-case word. -/
def singularChars (cs : List Char) : List Char :=
  let (head,word) := lastWord cs
  let key := String.ofList (lower word)
  if uncountable.contains key then cs
  else match irregular.find? (·.1 == key) with
  | some entry => head ++ matchCase word entry.2
  | none =>
    match stripEnd? "ies".toList cs with
    | some (c :: stem) =>
      if ieSingulars.contains key then cut 1 cs else c :: stem ++ ['y']
    | _ => singularBySuffix cs

def singularize (name : String) : String :=
  String.ofList (singularChars name.toList)

/-- The suffix rules from a singular to its plural. -/
def pluralBySuffix (cs : List Char) : List Char :=
  match stripEnd? ['y'] cs with
  | some stem =>
    if stem.getLast?.any isVowel then cs ++ ['s'] else stem ++ "ies".toList
  | none =>
    if ["s","x","z","ch","sh"].any (endsWith · (lower cs)) then cs ++ "es".toList
    else cs ++ ['s']

/-- The plural of a name, for matching the field names of inverse sides. -/
def pluralChars (cs : List Char) : List Char :=
  let (head,word) := lastWord cs
  let key := String.ofList (lower word)
  if uncountable.contains key then cs
  else match irregular.find? (·.2 == key) with
  | some entry => head ++ matchCase word entry.1
  | none => pluralBySuffix cs

def pluralize (name : String) : String :=
  String.ofList (pluralChars name.toList)

end EntityLink.Noun
