import EntityLink.Datum
import EntityLink.Text.Split

namespace EntityLink.Toml
open Text

def isSpace (c : Char) : Bool :=
  c == ' ' || c == '\t'

def dropSpace (cs : List Char) : List Char :=
  cs.dropWhile isSpace

/-- A character that comments and strings may hold as it stands. -/
def isPlain (c : Char) : Bool :=
  c == '\t' || (' ' ≤ c && c != '\x7f')

/-- The text behind a line break. -/
def lineBreak? : List Char → Option (List Char)
  | '\n' :: cs => some cs
  | '\r' :: '\n' :: cs => some cs
  | _ => none

def dropComment : List Char → List Char
  | '#' :: cs => cs.dropWhile isPlain
  | cs => cs

/-- The text behind the rest of a line that holds nothing but space and a comment. -/
def lineEnd? (cs : List Char) : Option (List Char) :=
  match dropComment (dropSpace cs) with
  | [] => some []
  | rest => lineBreak? rest

/-- Drops space, comments and line breaks. -/
def dropGap : Nat → List Char → List Char
  | 0, cs => cs
  | n + 1, cs =>
    match lineBreak? (dropComment (dropSpace cs)) with
    | some rest => dropGap n rest
    | none => dropSpace cs

def digit? (base : Nat) (c : Char) : Option Nat :=
  let d :=
    if c.isDigit then c.toNat - 48
    else if 'a' ≤ c && c ≤ 'f' then c.toNat - 87
    else if 'A' ≤ c && c ≤ 'F' then c.toNat - 55
    else base
  if d < base then some d else none

/-- The number that digits of a base write. -/
def number? (base : Nat) (cs : List Char) : Option Nat :=
  cs.foldlM (fun n c => (digit? base c).map (n * base + ·)) 0

/-- Digits of a base, with single underscores between digits. -/
def grouped? (base : Nat) (cs : List Char) : Option Nat :=
  let groups := splitAt '_' cs
  if groups.any List.isEmpty then none else number? base groups.flatten

def decimal? (cs : List Char) : Option Nat :=
  match cs with
  | '0' :: _ :: _ => none
  | _ => grouped? 10 cs

def integer? : List Char → Option Int
  | '+' :: cs => (decimal? cs).map Int.ofNat
  | '-' :: cs => (decimal? cs).map (fun n => -Int.ofNat n)
  | '0' :: 'x' :: cs => (grouped? 16 cs).map Int.ofNat
  | '0' :: 'o' :: cs => (grouped? 8 cs).map Int.ofNat
  | '0' :: 'b' :: cs => (grouped? 2 cs).map Int.ofNat
  | cs => (decimal? cs).map Int.ofNat

/-- A boolean or an integer. Fractions and dates are refused here, as no key takes one. -/
def scalar? (cs : List Char) : Option (Datum × List Char) :=
  let isPart := fun (c : Char) =>
    c.isAlphanum || c == '_' || c == '+' || c == '-' || c == '.' || c == ':'
  let word := cs.takeWhile isPart
  let rest := cs.dropWhile isPart
  if word = "true".toList then some (.bool true,rest)
  else if word = "false".toList then some (.bool false,rest)
  else (integer? word).map (fun n => (.int n,rest))

/-- The character that hexadecimal digits name. -/
def scalarValue? (digits : List Char) : Option Char := do
  let n ← number? 16 digits
  if n.isValidChar then some (Char.ofNat n) else none

def shortEscape? (c : Char) : Option Char :=
  [('b','\x08'), ('t','\t'), ('n','\n'), ('f','\x0c'), ('r','\r'), ('"','"'),
    ('\\','\\')].lookup c

def withChar (c : Char) (r : List Char × List Char) : List Char × List Char :=
  (c :: r.1,r.2)

/-- The value of a string in double quotes, read behind the first, and the text behind it. -/
def basic? : List Char → Option (List Char × List Char)
  | [] => none
  | '"' :: rest => some ([],rest)
  | '\\' :: 'u' :: a :: b :: c :: d :: rest => do
    return withChar (← scalarValue? [a,b,c,d]) (← basic? rest)
  | '\\' :: 'U' :: a :: b :: c :: d :: e :: f :: g :: h :: rest => do
    return withChar (← scalarValue? [a,b,c,d,e,f,g,h]) (← basic? rest)
  | '\\' :: c :: rest => do return withChar (← shortEscape? c) (← basic? rest)
  | c :: rest => if isPlain c then (basic? rest).map (withChar c) else none

/-- The value of a string in three double quotes. While `folding`, blanks and line breaks are
skipped, as they are behind a backslash that ends a line. -/
def longBasic? (folding : Bool) : List Char → Option (List Char × List Char)
  | [] => none
  | '"' :: '"' :: '"' :: '"' :: '"' :: rest => some (['"','"'],rest)
  | '"' :: '"' :: '"' :: '"' :: rest => some (['"'],rest)
  | '"' :: '"' :: '"' :: rest => some ([],rest)
  | '\\' :: 'u' :: a :: b :: c :: d :: rest => do
    return withChar (← scalarValue? [a,b,c,d]) (← longBasic? false rest)
  | '\\' :: 'U' :: a :: b :: c :: d :: e :: f :: g :: h :: rest => do
    return withChar (← scalarValue? [a,b,c,d,e,f,g,h]) (← longBasic? false rest)
  | '\\' :: c :: rest =>
    if (lineBreak? (dropSpace (c :: rest))).isSome then longBasic? true rest
    else do return withChar (← shortEscape? c) (← longBasic? false rest)
  | '\r' :: '\n' :: rest =>
    if folding then longBasic? true rest
    else (longBasic? false rest).map (fun r => withChar '\r' (withChar '\n' r))
  | c :: rest =>
    if folding && (isSpace c || c == '\n') then longBasic? true rest
    else if isPlain c || c == '\n' then (longBasic? false rest).map (withChar c)
    else none

/-- The value of a string in single quotes, which knows no escapes. -/
def literal? : List Char → Option (List Char × List Char)
  | [] => none
  | '\'' :: rest => some ([],rest)
  | c :: rest => if isPlain c then (literal? rest).map (withChar c) else none

/-- The value of a string in three single quotes. -/
def longLiteral? : List Char → Option (List Char × List Char)
  | [] => none
  | '\'' :: '\'' :: '\'' :: '\'' :: '\'' :: rest => some (['\'','\''],rest)
  | '\'' :: '\'' :: '\'' :: '\'' :: rest => some (['\''],rest)
  | '\'' :: '\'' :: '\'' :: rest => some ([],rest)
  | '\r' :: '\n' :: rest => (longLiteral? rest).map (fun r => withChar '\r' (withChar '\n' r))
  | c :: rest =>
    if isPlain c || c == '\n' then (longLiteral? rest).map (withChar c) else none

/-- A long string leaves out a line break right behind its opening quotes. -/
def dropBreak (cs : List Char) : List Char :=
  (lineBreak? cs).getD cs

def string? : List Char → Option (List Char × List Char)
  | '"' :: '"' :: '"' :: cs => longBasic? false (dropBreak cs)
  | '\'' :: '\'' :: '\'' :: cs => longLiteral? (dropBreak cs)
  | '"' :: cs => basic? cs
  | '\'' :: cs => literal? cs
  | _ => none

def isBare (c : Char) : Bool :=
  c.isAlphanum || c == '_' || c == '-'

def simpleKey? : List Char → Option (String × List Char)
  | '"' :: cs => (basic? cs).map (fun r => (String.ofList r.1,r.2))
  | '\'' :: cs => (literal? cs).map (fun r => (String.ofList r.1,r.2))
  | cs =>
    match cs.takeWhile isBare with
    | [] => none
    | word => some (String.ofList word,cs.dropWhile isBare)

/-- A dotted key: simple keys with dots between them. -/
def key? : Nat → List Char → Option (List String × List Char)
  | 0, _ => none
  | n + 1, cs => do
    let (k,rest) ← simpleKey? (dropSpace cs)
    match dropSpace rest with
    | '.' :: more => do
      let (ks,rest) ← key? n more
      return (k :: ks,rest)
    | rest => some ([k],rest)

/-- How a table came about: by a header of its own, as a step of another header, or as a step
of a dotted key. -/
inductive Origin
  | header
  | implied
  | dotted
  deriving DecidableEq

/-- A document while it is read. Values, inline tables among them, are closed. -/
inductive Node
  | leaf (value : Datum)
  | table (origin : Origin) (entries : List (String × Node))
  | tables (elements : List (List (String × Node)))

mutual

def Node.close : Node → Datum
  | .leaf value => value
  | .table _ es => .table (closeEntries es)
  | .tables ts => .list (closeElements ts)

def closeEntries : List (String × Node) → List (String × Datum)
  | [] => []
  | (k,n) :: es => (k,n.close) :: closeEntries es

def closeElements : List (List (String × Node)) → List Datum
  | [] => []
  | es :: ts => .table (closeEntries es) :: closeElements ts

end

/-- Changes what stands under a key, or adds it behind the others. -/
def change (k : String) (f : Option Node → Option Node) :
    List (String × Node) → Option (List (String × Node))
  | [] => (f none).map (fun n => [(k,n)])
  | (k',n) :: es =>
    if k' = k then (f (some n)).map (fun n => (k,n) :: es)
    else (change k f es).map ((k',n) :: ·)

/-- Changes the last element of a list of tables. -/
def changeLast (f : List (String × Node) → Option (List (String × Node))) :
    List (List (String × Node)) → Option (List (List (String × Node)))
  | [] => none
  | [es] => (f es).map ([·])
  | es :: es' :: ts => (changeLast f (es' :: ts)).map (es :: ·)

/-- Follows a path of keys and changes the table at its end. Steps that are missing become
tables; dotted keys may not enter a table that has a header. -/
def follow (dotted : Bool)
    (f : Origin → List (String × Node) → Option (Origin × List (String × Node))) :
    List String → Origin → List (String × Node) → Option (Origin × List (String × Node))
  | [], origin, es => f origin es
  | k :: ks, origin, es => do
    let es ← change k (fun
      | none => (follow dotted f ks (if dotted then .dotted else .implied) []).map
          (fun t => .table t.1 t.2)
      | some (.table o es) =>
        if dotted && o == .header then none
        else (follow dotted f ks o es).map (fun t => .table t.1 t.2)
      | some (.tables ts) =>
        (changeLast (fun es => (follow dotted f ks .header es).map (·.2)) ts).map .tables
      | some (.leaf _) => none) es
    return (origin,es)

/-- Adds a value under a key of one table. A step of a dotted key belongs to dotted keys alone. -/
def addValue (k : String) (viaDots : Bool) (value : Datum) (origin : Origin)
    (es : List (String × Node)) : Option (Origin × List (String × Node)) :=
  if (origin == .dotted) != viaDots then none
  else do
    let es ← change k (fun
      | none => some (.leaf value)
      | some _ => none) es
    return (origin,es)

/-- Adds a value under a dotted key. -/
def assign (path : List String) (value : Datum) (origin : Origin) (es : List (String × Node)) :
    Option (Origin × List (String × Node)) := do
  let k ← path.getLast?
  follow true (addValue k (1 < path.length) value) path.dropLast origin es

mutual

/-- A value and the text behind it. The fuel bounds the nesting and the number of elements. -/
def value? : Nat → List Char → Option (Datum × List Char)
  | 0, _ => none
  | n + 1, cs =>
    match cs with
    | '[' :: rest => do
      let (ds,rest) ← elements? n (dropGap n rest)
      return (.list ds,rest)
    | '{' :: rest =>
      match dropSpace rest with
      | '}' :: rest => some (.table [],rest)
      | rest => do
        let (es,rest) ← pairs? n [] rest
        return (.table (closeEntries es),rest)
    | '"' :: _ => (string? cs).map (fun r => (.text (String.ofList r.1),r.2))
    | '\'' :: _ => (string? cs).map (fun r => (.text (String.ofList r.1),r.2))
    | _ => scalar? cs

/-- The elements of an array, up to its closing bracket. -/
def elements? : Nat → List Char → Option (List Datum × List Char)
  | 0, _ => none
  | n + 1, cs =>
    match cs with
    | ']' :: rest => some ([],rest)
    | _ => do
      let (d,rest) ← value? n cs
      match dropGap n rest with
      | ']' :: rest => some ([d],rest)
      | ',' :: rest => do
        let (ds,rest) ← elements? n (dropGap n rest)
        return (d :: ds,rest)
      | _ => none

/-- The pairs of an inline table, which stands on one line. -/
def pairs? : Nat → List (String × Node) → List Char → Option (List (String × Node) × List Char)
  | 0, _, _ => none
  | n + 1, es, cs => do
    let (path,rest) ← key? n cs
    match rest with
    | '=' :: rest => do
      let (d,rest) ← value? n (dropSpace rest)
      let (_,es) ← assign path d .header es
      match dropSpace rest with
      | '}' :: rest => some (es,rest)
      | ',' :: rest => pairs? n es rest
      | _ => none
    | _ => none

end

/-- Opens the table of a header. -/
def openTable (path : List String) (es : List (String × Node)) : Option (List (String × Node)) := do
  let k ← path.getLast?
  let open? : Option Node → Option Node
    | none => some (.table .header [])
    | some (.table .implied es) => some (.table .header es)
    | some _ => none
  let t ← follow false (fun o es => (change k open? es).map (o,·)) path.dropLast .header es
  return t.2

/-- Adds an element to a list of tables. -/
def openElement (path : List String) (es : List (String × Node)) :
    Option (List (String × Node)) := do
  let k ← path.getLast?
  let open? : Option Node → Option Node
    | none => some (.tables [[]])
    | some (.tables ts) => some (.tables (ts ++ [[]]))
    | some _ => none
  let t ← follow false (fun o es => (change k open? es).map (o,·)) path.dropLast .header es
  return t.2

/-- Reads line after line into the table whose header was read last. -/
def lines? : Nat → List String → List (String × Node) → List Char → Option (List (String × Node))
  | 0, _, _, _ => none
  | n + 1, current, es, cs =>
    match dropSpace cs with
    | [] => some es
    | '[' :: '[' :: rest => do
      let (path,rest) ← key? n rest
      match rest with
      | ']' :: ']' :: rest => lines? n path (← openElement path es) (← lineEnd? rest)
      | _ => none
    | '[' :: rest => do
      let (path,rest) ← key? n rest
      match rest with
      | ']' :: rest => lines? n path (← openTable path es) (← lineEnd? rest)
      | _ => none
    | rest =>
      match lineEnd? rest with
      | some rest => lines? n current es rest
      | none => do
        let (path,rest) ← key? n rest
        match rest with
        | '=' :: rest => do
          let (d,rest) ← value? n (dropSpace rest)
          let t ← follow false (assign path d) current .header es
          lines? n current t.2 (← lineEnd? rest)
        | _ => none

/-- The entries of a document. A byte order mark may stand in front. -/
def parse? (text : String) : Option (List (String × Datum)) :=
  let cs := (stripStart? ['\ufeff'] text.toList).getD text.toList
  (lines? (cs.length + 2) [] [] cs).map closeEntries

end EntityLink.Toml
