import EntityLink.Text.Blank
import EntityLink.Text.WordChar

namespace EntityLink.Text

/-- The classes of characters that patterns name: `.` over all lines, `\s`, `\w`, single
characters and ranges, and what is in one class or another. -/
inductive CharClass
  | any
  | blank
  | word
  | exactly (c : Char)
  | range (first last : Char)
  | either (k l : CharClass)
  deriving DecidableEq, Repr

/-- Which characters are word characters is for the matcher to say. -/
def CharClass.holds (word : Char → Bool) : CharClass → Char → Bool
  | any, _ => true
  | blank, c => isBlank c
  | .word, c => word c
  | exactly d, c => c == d
  | range first last, c => first ≤ c && c ≤ last
  | either k l, c => k.holds word c || l.holds word c

/-- A regular expression: the anchors `^` and `$` of a whole text, one character of a class or
any number of them, patterns one after the other, a part that may be missing, and a numbered
group. -/
inductive Pattern
  | nothing
  | start
  | finish
  | one (k : CharClass)
  | many (k : CharClass)
  | seq (p q : Pattern)
  | optional (p : Pattern)
  | group (number : Nat) (p : Pattern)
  deriving DecidableEq, Repr

/-- The groups that took part in a match, with what each of them matched. -/
abbrev Groups :=
  List (Nat × List Char)

namespace Pattern

def all (ps : List Pattern) : Pattern :=
  ps.foldr seq nothing

/-- A text that stands for itself. -/
def literal (cs : List Char) : Pattern :=
  all (cs.map (fun c => one (.exactly c)))

/-- The pattern matches `cs`, which stands in a text between `before` and `after`, and its groups
match these parts of it. -/
inductive Matches (word : Char → Bool) :
    Pattern → List Char → List Char → List Char → Groups → Prop
  | nothing {before after : List Char} : Matches word nothing before [] after []
  | start {after : List Char} : Matches word start [] [] after []
  | finish {before : List Char} : Matches word finish before [] [] []
  | one {k : CharClass} {before after : List Char} {c : Char} (hc : k.holds word c = true) :
      Matches word (one k) before [c] after []
  | many {k : CharClass} {before cs after : List Char} (hcs : ∀ c ∈ cs, k.holds word c = true) :
      Matches word (many k) before cs after []
  | seq {p q : Pattern} {before cs ds after : List Char} {groups more : Groups}
      (hp : Matches word p before cs (ds ++ after) groups)
      (hq : Matches word q (before ++ cs) ds after more) :
      Matches word (seq p q) before (cs ++ ds) after (groups ++ more)
  | missing {p : Pattern} {before after : List Char} : Matches word (optional p) before [] after []
  | present {p : Pattern} {before cs after : List Char} {groups : Groups}
      (hp : Matches word p before cs after groups) :
      Matches word (optional p) before cs after groups
  | group {p : Pattern} {before cs after : List Char} {groups : Groups} (number : Nat)
      (hp : Matches word p before cs after groups) :
      Matches word (group number p) before cs after (groups ++ [(number,cs)])

/-- Somewhere in the text the pattern matches, with these groups. -/
def Captures (word : Char → Bool) (p : Pattern) (text : List Char) (groups : Groups) : Prop :=
  ∃ before cs after, text = before ++ (cs ++ after) ∧ p.Matches word before cs after groups

end Pattern

/-- What every version of Unicode says of word characters: which of the first 128 characters are
some, and that none is white space. -/
structure WordClass (word : Char → Bool) : Prop where
  ascii : ∀ c : Char, c.toNat < 128 → word c = (c.isAlphanum || c == '_')
  blank : ∀ c : Char, isBlank c = true → word c = false

/-- What is used of a library for regular expressions: the word characters it knows, and the
groups of the match that it finds in a text. -/
structure Matcher where
  word : Char → Bool
  captures? : Pattern → List Char → Option Groups

/-- It finds nothing but matches, and finds one where there is one. -/
structure Matcher.Lawful (m : Matcher) : Prop where
  wordClass : WordClass m.word
  sound : ∀ {p : Pattern} {text : List Char} {groups : Groups},
    m.captures? p text = some groups → p.Captures m.word text groups
  complete : ∀ {p : Pattern} {text : List Char} {groups : Groups},
    p.Captures m.word text groups → (m.captures? p text).isSome = true

/-- A match at the front of a text: what is matched, what is left, and the groups. -/
structure Way where
  matched : List Char
  rest : List Char
  groups : Groups
  deriving DecidableEq, Repr

/-- A text cut behind each of its beginnings that is all of one class, the longest one first. -/
def beginnings (holds : Char → Bool) : List Char → List (List Char × List Char)
  | [] => [([],[])]
  | c :: cs =>
    if holds c then (beginnings holds cs).map (fun b => (c :: b.1,b.2)) ++ [([],c :: cs)]
    else [([],c :: cs)]

/-- The ways in which a pattern matches at the front of a text, the preferred ones first: a
repetition goes on for as long as it can, and what may be missing is rather there. -/
def Pattern.ways (word : Char → Bool) : Pattern → List Char → List Char → List Way
  | nothing, _, text => [⟨[],text,[]⟩]
  | start, before, text => if before.isEmpty then [⟨[],text,[]⟩] else []
  | finish, _, text => if text.isEmpty then [⟨[],text,[]⟩] else []
  | one k, _, text =>
    match text with
    | [] => []
    | c :: cs => if k.holds word c then [⟨[c],cs,[]⟩] else []
  | many k, _, text => (beginnings (k.holds word) text).map (fun b => ⟨b.1,b.2,[]⟩)
  | seq p q, before, text =>
    (p.ways word before text).flatMap (fun w =>
      (q.ways word (before ++ w.matched) w.rest).map (fun v =>
        ⟨w.matched ++ v.matched,v.rest,w.groups ++ v.groups⟩))
  | optional p, before, text => p.ways word before text ++ [⟨[],text,[]⟩]
  | group number p, before, text =>
    (p.ways word before text).map (fun w => { w with groups := w.groups ++ [(number,w.matched)] })

/-- The groups of the preferred way at the first place where the pattern matches. -/
def Pattern.search? (word : Char → Bool) (p : Pattern) (before : List Char) :
    List Char → Option Groups
  | [] => (p.ways word before []).head?.map Way.groups
  | c :: cs =>
    match p.ways word before (c :: cs) with
    | w :: _ => some w.groups
    | [] => p.search? word (before ++ [c]) cs

/-- The matcher that tries one way after the other. -/
def Matcher.backtracking : Matcher where
  word := isWord
  captures? p text := p.search? isWord [] text

end EntityLink.Text
