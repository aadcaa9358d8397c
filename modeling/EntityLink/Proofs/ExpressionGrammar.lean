import EntityLink.Java.Tree
import EntityLink.MemberNames
import EntityLink.Proofs.Tokens

namespace EntityLink.Java
open Text

/-- Words that are no names: keywords and literals. -/
def reserved : List String :=
  keywords ++ ["true","false","null"]

/-- A name as the language has them: a word that begins with no digit and is not reserved. -/
structure IsName (name : String) : Prop where
  nonempty : name.toList ≠ []
  word : ∀ c ∈ name.toList, endsWord c = false
  digit : ∀ c ∈ name.toList.head?, c.isDigit = false
  free : name ∉ reserved

instance (name : String) : Decidable (IsName name) :=
  decidable_of_iff (name.toList ≠ [] ∧ name.toList.all (fun c => !endsWord c) = true ∧
      name.toList.head?.all (fun c => !c.isDigit) = true ∧ name ∉ reserved)
    ⟨fun ⟨h,hw,hd,hf⟩ => ⟨h,by simpa using hw,by simpa [Option.all_eq_true] using hd,hf⟩,
      fun ⟨h,hw,hd,hf⟩ => ⟨h,by simpa using hw,by simpa [Option.all_eq_true] using hd,hf⟩⟩

/-- Names with dots between them. -/
inductive IsDotted : String → Prop
  | name {n : String} : IsName n → IsDotted n
  | dot {n t : String} : IsName n → IsDotted t → IsDotted (n ++ "." ++ t)

/-- How tightly the phrases of an expression are held together, loosest first. -/
inductive Level
  | disjunction
  | conjunction
  | equality
  | relation
  | unary
  | primary
  | atom
  deriving DecidableEq, Repr

namespace Expr

/-- A single operand stands for itself. -/
def chain (join : List Expr → Expr) (first : Expr) : List Expr → Expr
  | [] => first
  | e :: es => join (first :: e :: es)

/-- The words that are expressions without being names. -/
def literals : List (String × Expr) :=
  [("this",.this),("null",.null),("true",.bool true),("false",.bool false)]

end Expr

/-- A dotted name stands at the front of the tokens, before others. -/
inductive ReadsDotted : List Token → String → List Token → Prop
  | name {n us} : IsName n → ReadsDotted (.word n :: us) n us
  | dot {n t ts us} : IsName n → ReadsDotted ts t us →
      ReadsDotted (.word n :: .sign "." :: ts) (n ++ "." ++ t) us

mutual

/-- The grammar of expressions. `Reads l ts e us` says that a phrase of level `l` stands at the
front of the tokens `ts`, before `us`, and that it is grouped as `e`. -/
inductive Reads : Level → List Token → Expr → List Token → Prop
  | disjunction {ts us vs e es} : Reads .conjunction ts e us →
      ReadsMore "||" .conjunction us es vs → Reads .disjunction ts (.chain .or e es) vs
  | conjunction {ts us vs e es} : Reads .equality ts e us →
      ReadsMore "&&" .equality us es vs → Reads .conjunction ts (.chain .and e es) vs
  | equality {ts us vs a e} : Reads .relation ts a us →
      Extends .equality a us e vs → Reads .equality ts e vs
  | relation {ts us vs a e} : Reads .unary ts a us →
      Extends .relation a us e vs → Reads .relation ts e vs
  | not {ts us e} : Reads .unary ts e us → Reads .unary (.sign "!" :: ts) (.not e) us
  | unary {ts us e} : Reads .primary ts e us → Reads .unary ts e us
  | primary {ts us vs a e} : Reads .atom ts a us →
      Extends .primary a us e vs → Reads .primary ts e vs
  | literal {w e us} : Expr.literals.lookup w = some e → Reads .atom (.word w :: us) e us
  | var {n us} : IsName n → Reads .atom (.word n :: us) (.var n) us
  | callBare {m ts us as} : IsName m → ReadsArguments ts as (.sign ")" :: us) →
      Reads .atom (.word m :: .sign "(" :: ts) (.callBare m as) us
  | create {t ts us vs as} : ReadsDotted ts t (.sign "(" :: us) →
      ReadsArguments us as (.sign ")" :: vs) → Reads .atom (.word "new" :: ts) (.create t as) vs
  | createDiamond {t ts us vs as} :
      ReadsDotted ts t (.sign "<" :: .sign ">" :: .sign "(" :: us) →
      ReadsArguments us as (.sign ")" :: vs) →
      Reads .atom (.word "new" :: ts) (.create (t ++ "<>") as) vs
  | parentheses {ts us e} : Reads .disjunction ts e (.sign ")" :: us) →
      Reads .atom (.sign "(" :: ts) e us

/-- Operators of one level group from the left: `Extends l a ts e us` says that what stands in
`ts` before `us` extends a phrase of that level read as `a` to one grouped as `e`. -/
inductive Extends : Level → Expr → List Token → Expr → List Token → Prop
  | done {l a us} : Extends l a us a us
  | same {a b e ts us vs} : Reads .relation ts b us → Extends .equality (.same a b) us e vs →
      Extends .equality a (.sign "==" :: ts) e vs
  | notSame {a b e ts us vs} : Reads .relation ts b us →
      Extends .equality (.notSame a b) us e vs → Extends .equality a (.sign "!=" :: ts) e vs
  | instanceOf {a e t ts us vs} : ReadsDotted ts t us →
      Extends .relation (.instanceOf a t) us e vs →
      Extends .relation a (.word "instanceof" :: ts) e vs
  | field {a e n us vs} : IsName n → Extends .primary (.field a n) us e vs →
      Extends .primary a (.sign "." :: .word n :: us) e vs
  | call {a e m as ts us vs} : IsName m → ReadsArguments ts as (.sign ")" :: us) →
      Extends .primary (.call a m as) us e vs →
      Extends .primary a (.sign "." :: .word m :: .sign "(" :: ts) e vs

/-- Further operands, each behind a separator. -/
inductive ReadsMore : String → Level → List Token → List Expr → List Token → Prop
  | nil {sep l us} : ReadsMore sep l us [] us
  | cons {sep l e es ts us vs} : Reads l ts e us → ReadsMore sep l us es vs →
      ReadsMore sep l (.sign sep :: ts) (e :: es) vs

/-- The arguments of a call. -/
inductive ReadsArguments : List Token → List Expr → List Token → Prop
  | none {us} : ReadsArguments us [] us
  | some {e es ts us vs} : Reads .disjunction ts e us → ReadsMore "," .disjunction us es vs →
      ReadsArguments ts (e :: es) vs

end

/-- The tokens that go on with a phrase of a level. -/
def Level.extenders : Level → List Token
  | atom => [.sign "("]
  | primary | unary => [.sign ".",.sign "("]
  | relation => [.word "instanceof",.sign ".",.sign "("]
  | equality => [.sign "==",.sign "!=",.word "instanceof",.sign ".",.sign "("]
  | conjunction => [.sign "&&",.sign "==",.sign "!=",.word "instanceof",.sign ".",.sign "("]
  | disjunction =>
    [.sign "||",.sign "&&",.sign "==",.sign "!=",.word "instanceof",.sign ".",.sign "("]

/-- The level of what operators of a level join. -/
def Level.operand : Level → Level
  | disjunction => conjunction
  | conjunction => equality
  | equality => relation
  | relation => unary
  | unary => primary
  | primary | atom => atom

theorem Level.extenders_operand (l : Level) : l.operand.extenders ⊆ l.extenders := by
  cases l <;> decide

/-- Nothing in front of these tokens goes on with a phrase of a level. -/
def Ends (l : Level) (us : List Token) : Prop :=
  ∀ t ∈ us.head?, t ∉ l.extenders

section Unambiguous

variable {l : Level} {a a' b e e' : Expr} {es es' : List Expr} {ts us us' vs vs' : List Token}
  {t t' : String}

theorem Ends.mono {l' : Level} (h : Ends l us) (hsub : l'.extenders ⊆ l.extenders) : Ends l' us :=
  fun t ht hmem => h t ht (hsub hmem)

theorem ends_cons {x : Token} (h : x ∉ l.extenders) : Ends l (x :: us) := by
  rintro y hy
  cases hy
  exact h

theorem Ends.ne {x : Token} (h : Ends l us) (hx : x ∈ l.extenders) : us.head? ≠ some x :=
  fun heq => h x heq hx

theorem IsName.ne_of_reserved {n w : String} (h : IsName n) (hw : w ∈ reserved) : n ≠ w :=
  fun heq => h.free (heq ▸ hw)

theorem IsName.lookup_ne {n : String} (h : IsName n) : Expr.literals.lookup n ≠ some e := by
  have hne : ∀ w ∈ ["this","null","true","false"], (n == w) = false := by
    intro w hw
    exact beq_false_of_ne (h.ne_of_reserved (by revert w; decide))
  simp [Expr.literals,List.lookup_cons,hne]

/-- A dotted name ends where no dot follows. -/
theorem ReadsDotted.unique (h : ReadsDotted ts t us) (h' : ReadsDotted ts t' us')
    (hus : us.head? ≠ some (.sign ".")) (hus' : us'.head? ≠ some (.sign ".")) :
    t = t' ∧ us = us' := by
  induction h generalizing t' us' with
  | name hn =>
    cases h' with
    | name => exact ⟨rfl,rfl⟩
    | dot => exact absurd rfl hus
  | dot hn h ih =>
    cases h' with
    | name => exact absurd rfl hus'
    | dot _ h' =>
      obtain ⟨rfl,rfl⟩ := ih h' hus hus'
      exact ⟨rfl,rfl⟩

theorem Ends.of_head {x : Token} (hus : us.head? = some x) (h : x ∉ l.extenders) : Ends l us := by
  rintro y hy
  cases hus.symm.trans hy
  exact h

/-- The signs that a phrase may begin with. -/
theorem Reads.head_sign {s : String} (h : Reads l ts e us) (hs : ts.head? = some (.sign s)) :
    s = "(" ∨ s = "!" := by
  induction h using Reads.rec (motive_2 := fun _ _ _ _ _ _ => True)
      (motive_3 := fun _ _ _ _ _ _ => True) (motive_4 := fun _ _ _ _ => True) with
  | disjunction _ _ ih | conjunction _ _ ih | equality _ _ ih | relation _ _ ih | unary _ ih
    | primary _ _ ih => exact ih hs
  | not | literal | var | callBare | create | createDiamond | parentheses => simp_all
  | done | same | notSame | instanceOf | field | call | nil | cons | none | some => trivial

/-- Only a negation begins with its sign. -/
theorem Reads.head_ne_not (h : Reads .primary ts e us) : ts.head? ≠ some (.sign "!") := by
  cases h with
  | primary hread _ => cases hread <;> simp

/-- Operators of a level do not go on with the phrases they join. -/
theorem Extends.ends {a : Expr} (h : Extends l a ts e us) (hus : Ends l us) :
    Ends l.operand ts := by
  cases h with
  | done => exact hus.mono l.extenders_operand
  | same | notSame | instanceOf | field | call => exact ends_cons (by decide)

theorem ReadsMore.ends {sep : String} (h : ReadsMore sep l ts es us) (hus : Ends l us)
    (hsep : .sign sep ∉ l.extenders) : Ends l ts := by
  cases h with
  | nil => exact hus
  | cons => exact ends_cons hsep

/-- A phrase is the only one of its level that stands there, before what does not go on with it. -/
def SolePhrase (l : Level) (ts : List Token) (e : Expr) (us : List Token) : Prop :=
  ∀ ⦃e' us'⦄, Reads l ts e' us' → Ends l us → Ends l us' → e = e' ∧ us = us'

def SoleExtension (l : Level) (a : Expr) (ts : List Token) (e : Expr) (us : List Token) : Prop :=
  ∀ ⦃e' us'⦄, Extends l a ts e' us' → Ends l us → Ends l us' → e = e' ∧ us = us'

/-- Operands end where no separator follows. -/
def SoleOperands (sep : String) (l : Level) (ts : List Token) (es : List Expr)
    (us : List Token) : Prop :=
  .sign sep ∉ l.extenders → ∀ ⦃es' us'⦄, ReadsMore sep l ts es' us' → Ends l us → Ends l us' →
    us.head? ≠ some (.sign sep) → us'.head? ≠ some (.sign sep) → es = es' ∧ us = us'

/-- Arguments end at the closing parenthesis. -/
def SoleArguments (ts : List Token) (es : List Expr) (us : List Token) : Prop :=
  ∀ ⦃es' us'⦄, ReadsArguments ts es' us' → us.head? = some (.sign ")") →
    us'.head? = some (.sign ")") → es = es' ∧ us = us'

theorem SolePhrase.chained {sep : String} (h : SolePhrase l.operand ts e us)
    (hmore : SoleOperands sep l.operand us es vs) (hreads : ReadsMore sep l.operand us es vs)
    (h' : Reads l.operand ts e' us') (hreads' : ReadsMore sep l.operand us' es' vs')
    (hjoins : .sign sep ∈ l.extenders) (hsep : .sign sep ∉ l.operand.extenders)
    (hvs : Ends l vs) (hvs' : Ends l vs') : e = e' ∧ es = es' ∧ vs = vs' := by
  have hinner := hvs.mono l.extenders_operand
  have hinner' := hvs'.mono l.extenders_operand
  obtain ⟨rfl,rfl⟩ := h h' (hreads.ends hinner hsep) (hreads'.ends hinner' hsep)
  exact ⟨rfl,hmore hsep hreads' hinner hinner' (hvs.ne hjoins) (hvs'.ne hjoins)⟩

theorem SolePhrase.disjunction (h : SolePhrase .conjunction ts e us)
    (hmore : SoleOperands "||" .conjunction us es vs)
    (hreads : ReadsMore "||" .conjunction us es vs) :
    SolePhrase .disjunction ts (.chain .or e es) vs := by
  intro e' vs' h' hvs hvs'
  cases h' with
  | disjunction hread' hreads' =>
    obtain ⟨rfl,rfl,rfl⟩ := h.chained (l := .disjunction) hmore hreads hread' hreads' (by decide)
      (by decide) hvs hvs'
    exact ⟨rfl,rfl⟩

theorem SolePhrase.conjunction (h : SolePhrase .equality ts e us)
    (hmore : SoleOperands "&&" .equality us es vs)
    (hreads : ReadsMore "&&" .equality us es vs) :
    SolePhrase .conjunction ts (.chain .and e es) vs := by
  intro e' vs' h' hvs hvs'
  cases h' with
  | conjunction hread' hreads' =>
    obtain ⟨rfl,rfl,rfl⟩ := h.chained (l := .conjunction) hmore hreads hread' hreads' (by decide)
      (by decide) hvs hvs'
    exact ⟨rfl,rfl⟩

theorem SolePhrase.extended (h : SolePhrase l.operand ts a us) (hmore : SoleExtension l a us e vs)
    (hextends : Extends l a us e vs) (h' : Reads l.operand ts a' us')
    (hextends' : Extends l a' us' e' vs') (hvs : Ends l vs) (hvs' : Ends l vs') :
    e = e' ∧ vs = vs' := by
  obtain ⟨rfl,rfl⟩ := h h' (hextends.ends hvs) (hextends'.ends hvs')
  exact hmore hextends' hvs hvs'

theorem SolePhrase.not (h : SolePhrase .unary ts e us) :
    SolePhrase .unary (.sign "!" :: ts) (.not e) us := by
  intro e' us' h' hus hus'
  cases h' with
  | not hread' =>
    obtain ⟨rfl,rfl⟩ := h hread' hus hus'
    exact ⟨rfl,rfl⟩
  | unary hread' => exact absurd rfl hread'.head_ne_not

theorem SolePhrase.unary (h : SolePhrase .primary ts e us) (hread : Reads .primary ts e us) :
    SolePhrase .unary ts e us := by
  intro e' us' h' hus hus'
  cases h' with
  | not => exact absurd rfl hread.head_ne_not
  | unary hread' => exact h hread' hus hus'

theorem solePhrase_literal {w : String} (hw : Expr.literals.lookup w = some e) :
    SolePhrase .atom (.word w :: us) e us := by
  intro e' us' h' hus hus'
  cases h' with
  | literal hw' => exact ⟨Option.some.inj (hw.symm.trans hw'),rfl⟩
  | var hn | callBare hn => exact absurd hw hn.lookup_ne
  | create | createDiamond => simp [Expr.literals,List.lookup_cons] at hw

theorem solePhrase_var {n : String} (hn : IsName n) :
    SolePhrase .atom (.word n :: us) (.var n) us := by
  intro e' us' h' hus hus'
  cases h' with
  | literal hw => exact absurd hw hn.lookup_ne
  | var => exact ⟨rfl,rfl⟩
  | callBare => exact absurd rfl (hus.ne (by decide))
  | create | createDiamond => exact absurd rfl (hn.ne_of_reserved (by decide))

theorem SoleArguments.callBare {m : String} (h : SoleArguments ts es (.sign ")" :: us))
    (hm : IsName m) : SolePhrase .atom (.word m :: .sign "(" :: ts) (.callBare m es) us := by
  intro e' us' h' hus hus'
  cases h' with
  | literal hw => exact absurd hw hm.lookup_ne
  | var => exact absurd rfl (hus'.ne (by decide))
  | callBare _ hargs' =>
    obtain ⟨rfl,heq⟩ := h hargs' rfl rfl
    cases heq
    exact ⟨rfl,rfl⟩
  | create | createDiamond => exact absurd rfl (hm.ne_of_reserved (by decide))

theorem SoleArguments.create (h : SoleArguments us es (.sign ")" :: vs))
    (ht : ReadsDotted ts t (.sign "(" :: us)) :
    SolePhrase .atom (.word "new" :: ts) (.create t es) vs := by
  intro e' vs' h' hvs hvs'
  cases h' with
  | literal hw => simp [Expr.literals,List.lookup_cons] at hw
  | var hn | callBare hn => exact absurd rfl (hn.ne_of_reserved (by decide))
  | create ht' hargs' =>
    obtain ⟨rfl,heq⟩ := ht.unique ht' (by simp) (by simp)
    cases heq
    obtain ⟨rfl,heq⟩ := h hargs' rfl rfl
    cases heq
    exact ⟨rfl,rfl⟩
  | createDiamond ht' =>
    obtain ⟨-,heq⟩ := ht.unique ht' (by simp) (by simp)
    simp at heq

theorem SoleArguments.createDiamond (h : SoleArguments us es (.sign ")" :: vs))
    (ht : ReadsDotted ts t (.sign "<" :: .sign ">" :: .sign "(" :: us)) :
    SolePhrase .atom (.word "new" :: ts) (.create (t ++ "<>") es) vs := by
  intro e' vs' h' hvs hvs'
  cases h' with
  | literal hw => simp [Expr.literals,List.lookup_cons] at hw
  | var hn | callBare hn => exact absurd rfl (hn.ne_of_reserved (by decide))
  | create ht' =>
    obtain ⟨-,heq⟩ := ht.unique ht' (by simp) (by simp)
    simp at heq
  | createDiamond ht' hargs' =>
    obtain ⟨rfl,heq⟩ := ht.unique ht' (by simp) (by simp)
    cases heq
    obtain ⟨rfl,heq⟩ := h hargs' rfl rfl
    cases heq
    exact ⟨rfl,rfl⟩

theorem SolePhrase.parentheses (h : SolePhrase .disjunction ts e (.sign ")" :: us)) :
    SolePhrase .atom (.sign "(" :: ts) e us := by
  intro e' us' h' hus hus'
  cases h' with
  | parentheses hread' =>
    obtain ⟨rfl,heq⟩ := h hread' (ends_cons (by decide)) (ends_cons (by decide))
    cases heq
    exact ⟨rfl,rfl⟩

theorem soleExtension_done : SoleExtension l a us a us := by
  intro e' us' h' hus hus'
  cases h' with
  | done => exact ⟨rfl,rfl⟩
  | same | notSame | instanceOf | field | call => exact absurd (by decide) (hus _ rfl)

theorem SoleExtension.same (h : SoleExtension .equality (.same a b) us e vs)
    (hb : SolePhrase .relation ts b us) (hextends : Extends .equality (.same a b) us e vs) :
    SoleExtension .equality a (.sign "==" :: ts) e vs := by
  intro e' vs' h' hvs hvs'
  generalize hts : Token.sign "==" :: ts = xs at h'
  cases h' with
  | done =>
    subst hts
    exact absurd rfl (hvs'.ne (by decide))
  | same hread' hextends' =>
    cases hts
    obtain ⟨rfl,rfl⟩ := hb hread' (hextends.ends hvs) (hextends'.ends hvs')
    exact h hextends' hvs hvs'
  | notSame => simp at hts

theorem SoleExtension.notSame (h : SoleExtension .equality (.notSame a b) us e vs)
    (hb : SolePhrase .relation ts b us) (hextends : Extends .equality (.notSame a b) us e vs) :
    SoleExtension .equality a (.sign "!=" :: ts) e vs := by
  intro e' vs' h' hvs hvs'
  generalize hts : Token.sign "!=" :: ts = xs at h'
  cases h' with
  | done =>
    subst hts
    exact absurd rfl (hvs'.ne (by decide))
  | same => simp at hts
  | notSame hread' hextends' =>
    cases hts
    obtain ⟨rfl,rfl⟩ := hb hread' (hextends.ends hvs) (hextends'.ends hvs')
    exact h hextends' hvs hvs'

theorem SoleExtension.instanceOf (h : SoleExtension .relation (.instanceOf a t) us e vs)
    (ht : ReadsDotted ts t us) (hextends : Extends .relation (.instanceOf a t) us e vs) :
    SoleExtension .relation a (.word "instanceof" :: ts) e vs := by
  intro e' vs' h' hvs hvs'
  cases h' with
  | done => exact absurd rfl (hvs'.ne (by decide))
  | instanceOf ht' hextends' =>
    obtain ⟨rfl,rfl⟩ := ht.unique ht' ((hextends.ends hvs).ne (by decide))
      ((hextends'.ends hvs').ne (by decide))
    exact h hextends' hvs hvs'

theorem SoleExtension.field {n : String} (h : SoleExtension .primary (.field a n) us e vs)
    (hextends : Extends .primary (.field a n) us e vs) :
    SoleExtension .primary a (.sign "." :: .word n :: us) e vs := by
  intro e' vs' h' hvs hvs'
  cases h' with
  | done => exact absurd rfl (hvs'.ne (by decide))
  | field _ hextends' => exact h hextends' hvs hvs'
  | call => exact absurd rfl ((hextends.ends hvs).ne (by decide))

theorem SoleExtension.call {m : String} (h : SoleExtension .primary (.call a m es) us e vs)
    (hargs : SoleArguments ts es (.sign ")" :: us)) :
    SoleExtension .primary a (.sign "." :: .word m :: .sign "(" :: ts) e vs := by
  intro e' vs' h' hvs hvs'
  cases h' with
  | done => exact absurd rfl (hvs'.ne (by decide))
  | field _ hextends' => exact absurd rfl ((hextends'.ends hvs').ne (by decide))
  | call _ hargs' hextends' =>
    obtain ⟨rfl,heq⟩ := hargs hargs' rfl rfl
    cases heq
    exact h hextends' hvs hvs'

theorem soleOperands_nil {sep : String} : SoleOperands sep l us [] us := by
  intro _ es' us' h' _ _ hend _
  cases h' with
  | nil => exact ⟨rfl,rfl⟩
  | cons => exact absurd rfl hend

theorem SoleOperands.cons {sep : String} (h : SoleOperands sep l us es vs)
    (he : SolePhrase l ts e us) (hreads : ReadsMore sep l us es vs) :
    SoleOperands sep l (.sign sep :: ts) (e :: es) vs := by
  intro hsep es' vs' h' hvs hvs' hend hend'
  cases h' with
  | nil => exact absurd rfl hend'
  | cons hread' hreads' =>
    obtain ⟨rfl,rfl⟩ := he hread' (hreads.ends hvs hsep) (hreads'.ends hvs' hsep)
    obtain ⟨rfl,rfl⟩ := h hsep hreads' hvs hvs' hend hend'
    exact ⟨rfl,rfl⟩

theorem soleArguments_none : SoleArguments us [] us := by
  intro es' us' h' hend hend'
  cases h' with
  | none => exact ⟨rfl,rfl⟩
  | some hread' => exact absurd (hread'.head_sign hend) (by decide)

theorem SoleOperands.arguments (h : SoleOperands "," .disjunction us es vs)
    (he : SolePhrase .disjunction ts e us) (hread : Reads .disjunction ts e us)
    (hreads : ReadsMore "," .disjunction us es vs) : SoleArguments ts (e :: es) vs := by
  intro es' vs' h' hend hend'
  cases h' with
  | none => exact absurd (hread.head_sign hend') (by decide)
  | some hread' hreads' =>
    have hvs := Ends.of_head (l := .disjunction) hend (by decide)
    have hvs' := Ends.of_head (l := .disjunction) hend' (by decide)
    obtain ⟨rfl,rfl⟩ := he hread' (hreads.ends hvs (by decide)) (hreads'.ends hvs' (by decide))
    obtain ⟨rfl,rfl⟩ := h (by decide) hreads' hvs hvs' (by simp [hend]) (by simp [hend'])
    exact ⟨rfl,rfl⟩

/-- Before what does not go on with it, a phrase is read in one way only. -/
theorem Reads.unique (h : Reads l ts e us) : SolePhrase l ts e us := by
  induction h using Reads.rec (motive_2 := fun l a ts e us _ => SoleExtension l a ts e us)
      (motive_3 := fun sep l ts es us _ => SoleOperands sep l ts es us)
      (motive_4 := fun ts es us _ => SoleArguments ts es us) with
  | disjunction _ hreads ih ihmore => exact ih.disjunction ihmore hreads
  | conjunction _ hreads ih ihmore => exact ih.conjunction ihmore hreads
  | equality _ hextends ih ihextends =>
    intro e' vs' h' hvs hvs'
    cases h' with
    | equality hread' hextends' =>
      exact ih.extended (l := .equality) ihextends hextends hread' hextends' hvs hvs'
  | relation _ hextends ih ihextends =>
    intro e' vs' h' hvs hvs'
    cases h' with
    | relation hread' hextends' =>
      exact ih.extended (l := .relation) ihextends hextends hread' hextends' hvs hvs'
  | primary _ hextends ih ihextends =>
    intro e' vs' h' hvs hvs'
    cases h' with
    | primary hread' hextends' =>
      exact ih.extended (l := .primary) ihextends hextends hread' hextends' hvs hvs'
  | not _ ih => exact ih.not
  | unary hread ih => exact ih.unary hread
  | literal hw => exact solePhrase_literal hw
  | var hn => exact solePhrase_var hn
  | callBare hm _ ih => exact ih.callBare hm
  | create ht _ ih => exact ih.create ht
  | createDiamond ht _ ih => exact ih.createDiamond ht
  | parentheses _ ih => exact ih.parentheses
  | done => exact soleExtension_done
  | same _ hextends ih ihextends => exact ihextends.same ih hextends
  | notSame _ hextends ih ihextends => exact ihextends.notSame ih hextends
  | instanceOf ht hextends ih => exact ih.instanceOf ht hextends
  | field _ hextends ih => exact ih.field hextends
  | call _ _ _ ih ihextends => exact ihextends.call ih
  | nil => exact soleOperands_nil
  | cons _ hreads ih ihmore => exact ihmore.cons ih hreads
  | none => exact soleArguments_none
  | some hread hreads ih ihmore => exact ihmore.arguments ih hread hreads

end Unambiguous

/-- Tokens up to some place, without an equals sign by itself. -/
def Unassigned (ts us : List Token) : Prop :=
  ∃ xs, ts = xs ++ us ∧ .sign "=" ∉ xs

section Unassigned

variable {l : Level} {e : Expr} {ts us vs : List Token} {t : String}

theorem Unassigned.refl : Unassigned ts ts :=
  ⟨[],rfl,List.not_mem_nil⟩

theorem Unassigned.trans (h : Unassigned ts us) (h' : Unassigned us vs) : Unassigned ts vs := by
  obtain ⟨xs,rfl,hxs⟩ := h
  obtain ⟨ys,rfl,hys⟩ := h'
  exact ⟨xs ++ ys,by simp,by simp [hxs,hys]⟩

theorem Unassigned.cons {x : Token} (hx : x ≠ .sign "=") (h : Unassigned ts us) :
    Unassigned (x :: ts) us := by
  obtain ⟨xs,rfl,hxs⟩ := h
  exact ⟨x :: xs,rfl,by simp [hxs,hx.symm]⟩

/-- A token less at the end. -/
theorem Unassigned.before {x : Token} (hx : x ≠ .sign "=") (h : Unassigned ts (x :: us)) :
    Unassigned ts us :=
  h.trans (Unassigned.refl.cons hx)

theorem ReadsDotted.unassigned (h : ReadsDotted ts t us) : Unassigned ts us := by
  induction h with
  | name => exact .cons (by simp) .refl
  | dot _ _ ih => exact (ih.cons (by decide)).cons (by simp)

/-- No expression holds an equals sign by itself. -/
theorem Reads.unassigned (h : Reads l ts e us) : Unassigned ts us := by
  induction h using Reads.rec
      (motive_2 := fun _ _ ts _ us _ => Unassigned ts us)
      (motive_3 := fun sep _ ts _ us _ => sep ≠ "=" → Unassigned ts us)
      (motive_4 := fun ts _ us _ => Unassigned ts us) with
  | disjunction _ _ ih ihmore | conjunction _ _ ih ihmore => exact ih.trans (ihmore (by decide))
  | equality _ _ ih ihextends | relation _ _ ih ihextends | primary _ _ ih ihextends =>
    exact ih.trans ihextends
  | not _ ih => exact ih.cons (by decide)
  | unary _ ih => exact ih
  | literal | var => exact .cons (by simp) .refl
  | callBare _ _ ih => exact ((ih.before (by decide)).cons (by decide)).cons (by simp)
  | create ht _ ih =>
    exact ((ht.unassigned.before (by decide)).trans (ih.before (by decide))).cons (by decide)
  | createDiamond ht _ ih =>
    have hclass := ((ht.unassigned.before (by decide)).before (by decide)).before (by decide)
    exact (hclass.trans (ih.before (by decide))).cons (by decide)
  | parentheses _ ih => exact (ih.before (by decide)).cons (by decide)
  | done | nil | none => exact .refl
  | same _ _ ih ihextends | notSame _ _ ih ihextends =>
    exact (ih.trans ihextends).cons (by decide)
  | instanceOf ht _ ih => exact (ht.unassigned.trans ih).cons (by decide)
  | field _ _ ih => exact (ih.cons (by simp)).cons (by decide)
  | call _ _ _ ih ihextends =>
    exact ((((ih.before (by decide)).trans ihextends).cons (by decide)).cons (by simp)).cons
      (by decide)
  | cons _ _ ih ihmore =>
    rename_i hsep
    exact (ih.trans (ihmore hsep)).cons (by simpa using hsep)
  | some _ _ ih ihmore => exact ih.trans (ihmore (by decide))

end Unassigned

end EntityLink.Java
