namespace EntityLink.CommandLine

inductive Command
  | analyze (manifest : String)
  | generate (manifest output : String)
  deriving DecidableEq, Repr

/-- What the arguments ask for. -/
inductive Request
  | version
  | help
  | misuse
  | run (settings : Option String) (command : Command)
  deriving DecidableEq, Repr

/-- Where reading the arguments stands: before a command, or inside one. -/
inductive Place
  | top
  | analyze
  | generate
  deriving DecidableEq, Repr

/-- What has been read so far. A settings file may be named once before the command and once
behind it; the one behind it counts. -/
structure Given where
  place : Place := .top
  outerSettings : Option String := none
  settings : Option String := none
  manifest : Option String := none
  output : Option String := none
  deriving DecidableEq, Repr

/-- Options that take a value. -/
inductive Valued
  | settings
  | output
  deriving DecidableEq, Repr

namespace Given

/-- Gives an option its value. Empty values and values given twice are refused. -/
def setOption (g : Given) (o : Valued) (value : String) : Option Given :=
  if value = "" then none
  else match o with
  | .settings => if g.settings.isSome then none else some { g with settings := some value }
  | .output => if g.output.isSome then none else some { g with output := some value }

def setManifest (g : Given) (value : String) : Option Given :=
  if value = "" ∨ g.manifest.isSome ∨ g.place = .top then none
  else some { g with manifest := some value }

def enter (g : Given) (place : Place) : Given :=
  { g with place := place, outerSettings := g.settings, settings := none }

/-- The request that complete arguments make. -/
def finish (g : Given) : Request :=
  let settings := g.settings.or g.outerSettings
  match g.place,g.manifest,g.output with
  | .analyze,some manifest,_ => .run settings (.analyze manifest)
  | .generate,some manifest,some output => .run settings (.generate manifest output)
  | _,_,_ => .misuse

end Given

/-- The long options of a place that take a value. -/
def valuedLong? (place : Place) (name : String) : Option Valued :=
  if name = "config" then some .settings
  else if name = "output" ∧ place = .generate then some .output
  else none

/-- What a cluster of short options comes to. -/
inductive Cluster
  | flags
  | needs (o : Valued)
  | value (o : Valued) (value : String)
  | version
  | help
  | unknown
  deriving DecidableEq, Repr

/-- Reads short options written together. One that takes a value takes the rest of the cluster,
less an equals sign in front, or else the next argument. -/
def cluster (place : Place) : List Char → Cluster
  | [] => .flags
  | 'v' :: cs => cluster place cs
  | 'h' :: _ => .help
  | 'V' :: _ => if place = .top then .version else .unknown
  | 'o' :: cs =>
    if place = .generate then
      match cs with
      | [] => .needs .output
      | '=' :: cs => .value .output (String.ofList cs)
      | cs => .value .output (String.ofList cs)
    else .unknown
  | _ => .unknown

/-- An argument that cannot be the value of the option before it. -/
def looksLikeOption (cs : List Char) : Bool :=
  match cs with
  | '-' :: _ :: _ => true
  | _ => false

/-- Every argument behind a lone `--` is an operand. -/
def operands (g : Given) : List String → Request
  | [] => g.finish
  | a :: as =>
    match g.setManifest a with
    | some g => operands g as
    | none => .misuse

/-- Reads arguments one after another. The first that is out of place decides, unless a request
for the version or for help comes before it. -/
def read (g : Given) : List String → Request
  | [] => g.finish
  | a :: as =>
    match a.toList with
    | ['-','-'] => operands g as
    | '-' :: '-' :: long =>
      let name := String.ofList (long.takeWhile (· != '='))
      match valuedLong? g.place name,long.dropWhile (· != '=') with
      | some o,_ :: value =>
        match g.setOption o (String.ofList value) with
        | some g => read g as
        | none => .misuse
      | some o,[] =>
        match as with
        | [] => .misuse
        | value :: as =>
          if looksLikeOption value.toList then .misuse
          else match g.setOption o value with
          | some g => read g as
          | none => .misuse
      | none,[] =>
        if name = "verbose" then read g as
        else if name = "help" then .help
        else if name = "version" ∧ g.place = .top then .version
        else .misuse
      | none,_ => .misuse
    | '-' :: c :: cs =>
      match cluster g.place (c :: cs) with
      | .flags => read g as
      | .version => .version
      | .help => .help
      | .unknown => .misuse
      | .value o value =>
        match g.setOption o value with
        | some g => read g as
        | none => .misuse
      | .needs o =>
        match as with
        | [] => .misuse
        | value :: as =>
          if looksLikeOption value.toList then .misuse
          else match g.setOption o value with
          | some g => read g as
          | none => .misuse
    | _ =>
      if g.place = .top then
        if a = "analyze" then read (g.enter .analyze) as
        else if a = "generate" then read (g.enter .generate) as
        else if a = "help" then .help
        else .misuse
      else match g.setManifest a with
      | some g => read g as
      | none => .misuse

def Request.ofArguments (arguments : List String) : Request :=
  read {} arguments

end EntityLink.CommandLine
