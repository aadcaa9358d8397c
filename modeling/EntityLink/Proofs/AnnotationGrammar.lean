import EntityLink.AnnotationText
import EntityLink.Proofs.PatternMatching
import Mathlib.Data.List.TakeWhile

namespace EntityLink
open Text

namespace Text

variable {bs cs : List Char}

theorem dropBlank_append (hbs : ∀ c ∈ bs, isBlank c = true) (cs : List Char) :
    dropBlank (bs ++ cs) = dropBlank cs :=
  List.dropWhile_append_of_pos hbs

theorem dropBlank_of_blank (hbs : ∀ c ∈ bs, isBlank c = true) : dropBlank bs = [] :=
  List.dropWhile_eq_nil_iff.mpr hbs

/-- White space behind the last character goes. -/
theorem dropBlankEnd_append {c : Char} (hc : isBlank c = false) (cs : List Char)
    (hbs : ∀ b ∈ bs, isBlank b = true) : dropBlankEnd (cs ++ c :: bs) = cs ++ [c] := by
  have hreverse : (cs ++ c :: bs).reverse = bs.reverse ++ c :: cs.reverse := by simp
  have hblank : ∀ b ∈ bs.reverse, isBlank b = true := fun b hb => hbs b (List.mem_reverse.mp hb)
  rw [dropBlankEnd,hreverse,List.dropWhile_append_of_pos hblank,
    List.dropWhile_cons_of_neg (by simp [hc])]
  simp

/-- What is taken as far as it goes ends where the text does not go on with it. -/
theorem takeWhile_maximal {p : Char → Bool} (hall : ∀ c ∈ cs, p c = true)
    (hstop : ∀ c ∈ bs.head?, p c = false) :
    (cs ++ bs).takeWhile p = cs ∧ (cs ++ bs).dropWhile p = bs := by
  rw [List.takeWhile_append_of_pos hall,List.dropWhile_append_of_pos hall]
  cases bs with
  | nil => exact ⟨List.append_nil cs,rfl⟩
  | cons b bs => simp [hstop b rfl]

end Text

namespace AnnotationText

/-- The letters of ASCII and the underscore. -/
def startsName (c : Char) : Bool :=
  c.isAlpha || c == '_'

def continuesName (word : Char → Bool) (c : Char) : Bool :=
  word c || c == '.'

/-- A letter or an underscore, then word characters and dots. -/
def isName (word : Char → Bool) : List Char → Bool
  | [] => false
  | c :: cs => startsName c && cs.all (continuesName word)

/-- What may follow a name, and the arguments it stands for: nothing, or a group in parentheses. -/
inductive SpellsGroup : List Char → List Char → Prop
  | missing : SpellsGroup [] []
  | parenthesized (inner : List Char) : SpellsGroup ('(' :: inner ++ [')']) (trimChars inner)

/-- How an annotation is written. White space may stand around each part; the name goes on as far as
it can, and no parenthesis comes after the one that closes the group. -/
inductive Spells (word : Char → Bool) : List Char → AnnotationText → Prop
  | intro {before gap name space group arguments after : List Char}
      (hbefore : ∀ c ∈ before, isBlank c = true) (hgap : ∀ c ∈ gap, isBlank c = true)
      (hname : isName word name = true)
      (hmaximal : ∀ c ∈ (space ++ (group ++ after)).head?, continuesName word c = false)
      (hspace : ∀ c ∈ space, isBlank c = true) (hgroup : SpellsGroup group arguments)
      (hlast : ')' ∉ after) (hafter : ∀ c ∈ after, isBlank c = true) :
      Spells word (before ++ '@' :: (gap ++ (name ++ (space ++ (group ++ after)))))
        ⟨String.ofList name,String.ofList arguments⟩

section Names

variable {word : Char → Bool} {c : Char} {cs : List Char}

theorem toNat_lt_of_startsName (h : startsName c = true) : c.toNat < 128 := by
  rw [startsName,Bool.or_eq_true,beq_iff_eq] at h
  rcases h with h | rfl
  · have hrange : (decide (c.val ≥ 65 ∧ c.val ≤ 90) || (decide (c.val ≥ 97) &&
        decide (c.val ≤ 122))) = true := h
    have hval : c.toNat = c.val.toNat := rfl
    simp only [Bool.or_eq_true,Bool.and_eq_true,decide_eq_true_eq,ge_iff_le,
      UInt32.le_iff_toNat_le,UInt32.reduceToNat] at hrange
    omega
  · decide

theorem continuesName_of_startsName (hword : WordClass word) (h : startsName c = true) :
    continuesName word c = true := by
  rw [continuesName,hword.ascii c (toNat_lt_of_startsName h),Char.isAlphanum]
  rw [startsName,Bool.or_eq_true] at h
  rcases h with h | h <;> simp [h]

theorem isBlank_of_continuesName (hword : WordClass word) (h : continuesName word c = true) :
    isBlank c = false := by
  by_contra hblank
  rw [Bool.not_eq_false] at hblank
  rw [continuesName,hword.blank c hblank,Bool.false_or,beq_iff_eq] at h
  rw [h] at hblank
  exact absurd hblank (by decide)

/-- A name is not empty, and all of it continues one. -/
theorem exists_of_isName (hword : WordClass word) (h : isName word cs = true) :
    ∃ c ds, cs = c :: ds ∧ isBlank c = false ∧ ∀ d ∈ cs, continuesName word d = true := by
  cases cs with
  | nil => cases h
  | cons c ds =>
    obtain ⟨hstarts,hall⟩ := Bool.and_eq_true_iff.mp h
    have hfirst := continuesName_of_startsName hword hstarts
    exact ⟨c,ds,rfl,isBlank_of_continuesName hword hfirst,
      List.forall_mem_cons.mpr ⟨hfirst,List.all_eq_true.mp hall⟩⟩

theorem matches_namePattern_iff {before after : List Char} {groups : Groups} :
    namePattern.Matches word before cs after groups ↔ isName word cs = true ∧ groups = [] := by
  have hstarts : ∀ c, CharClass.holds word
      (.either (.range 'A' 'Z') (.either (.range 'a' 'z') (.exactly '_'))) c = startsName c := by
    intro c
    have hupper : c.isUpper = (decide ('A' ≤ c) && decide (c ≤ 'Z')) := Bool.decide_and _ _
    have hletter : c.isAlpha = (c.isUpper || c.isLower) := rfl
    rw [startsName,hletter,hupper,Bool.or_assoc]
    rfl
  rw [namePattern,Pattern.matches_seq_iff]
  constructor
  · rintro ⟨ds,es,front,back,rfl,rfl,hone,hmany⟩
    obtain ⟨⟨c,hc,rfl⟩,rfl⟩ := Pattern.matches_one_iff.mp hone
    obtain ⟨hes,rfl⟩ := Pattern.matches_many_iff.mp hmany
    rw [hstarts] at hc
    exact ⟨Bool.and_eq_true_iff.mpr ⟨hc,List.all_eq_true.mpr hes⟩,rfl⟩
  · rintro ⟨hname,rfl⟩
    cases cs with
    | nil => cases hname
    | cons c cs =>
      obtain ⟨hc,hcs⟩ := Bool.and_eq_true_iff.mp hname
      rw [← hstarts] at hc
      exact ⟨[c],cs,[],[],rfl,rfl,.one hc,.many (List.all_eq_true.mp hcs)⟩

end Names

section Reading

variable {word : Char → Bool} {name space group arguments after text : List Char}
  {groups : Groups} {a b : AnnotationText} {m : Matcher}

theorem matches_argumentsPattern_iff {before cs : List Char} :
    argumentsPattern.Matches word before cs after groups ↔
      ∃ inner, cs = '(' :: inner ++ [')'] ∧ groups = [(2,inner)] := by
  constructor
  · intro h
    obtain ⟨rest,rfl,hrest⟩ := Pattern.matches_literal_seq_iff.mp h
    obtain ⟨inner,close,front,back,rfl,rfl,hinner,hclose⟩ := Pattern.matches_group_seq_iff.mp hrest
    obtain ⟨-,rfl⟩ := Pattern.matches_many_iff.mp hinner
    obtain ⟨rfl,rfl⟩ := Pattern.matches_literal_iff.mp (Pattern.matches_seq_nothing_iff.mp hclose)
    exact ⟨inner,rfl,rfl⟩
  · rintro ⟨inner,rfl,rfl⟩
    refine Pattern.matches_literal_seq_iff.mpr ⟨inner ++ [')'],rfl,?_⟩
    refine Pattern.matches_group_seq_iff.mpr
      ⟨inner,[')'],[],[],rfl,rfl,.many (fun _ _ => rfl),?_⟩
    exact Pattern.matches_seq_nothing_iff.mpr (Pattern.matches_literal_iff.mpr ⟨rfl,rfl⟩)

/-- What follows the name. -/
theorem matches_closing_iff {before cs : List Char} :
    (Pattern.all [.many .blank,.optional argumentsPattern,.many .blank,.finish]).Matches word before
      cs after groups ↔ after = [] ∧ ∃ space group back, cs = space ++ (group ++ back) ∧
        (∀ c ∈ space, isBlank c = true) ∧ (∀ c ∈ back, isBlank c = true) ∧
        ((∃ inner, group = '(' :: inner ++ [')'] ∧ groups = [(2,inner)]) ∨
          group = [] ∧ groups = []) := by
  simp only [Pattern.all,List.foldr_cons,List.foldr_nil,Pattern.matches_many_seq_iff,
    Pattern.matches_seq_iff (p := .optional argumentsPattern),Pattern.matches_optional_iff,
    matches_argumentsPattern_iff,Pattern.matches_seq_nothing_iff,Pattern.matches_finish_iff]
  constructor
  · rintro ⟨space,_,rfl,hspace,group,_,rest,_,rfl,rfl,hgroup,back,_,rfl,hback,rfl,rfl,rfl⟩
    rw [List.append_nil,List.append_nil]
    exact ⟨rfl,space,group,back,rfl,hspace,hback,hgroup⟩
  · rintro ⟨rfl,space,group,back,rfl,hspace,hback,hgroup⟩
    exact ⟨space,_,rfl,hspace,group,back,groups,[],rfl,(List.append_nil groups).symm,hgroup,back,[],
      (List.append_nil back).symm,hback,rfl,rfl,rfl⟩

theorem matches_annotationPattern_iff {before cs : List Char} :
    annotationPattern.Matches word before cs after groups ↔ before = [] ∧ after = [] ∧
      ∃ front gap name space group back rest,
        cs = front ++ '@' :: (gap ++ (name ++ (space ++ (group ++ back)))) ∧
        groups = (1,name) :: rest ∧ (∀ c ∈ front, isBlank c = true) ∧
        (∀ c ∈ gap, isBlank c = true) ∧ isName word name = true ∧
        (∀ c ∈ space, isBlank c = true) ∧ (∀ c ∈ back, isBlank c = true) ∧
        ((∃ inner, group = '(' :: inner ++ [')'] ∧ rest = [(2,inner)]) ∨
          group = [] ∧ rest = []) := by
  constructor
  · intro h
    obtain ⟨rfl,hblank⟩ := Pattern.matches_start_seq_iff.mp h
    obtain ⟨front,_,rfl,hfront,hat⟩ := Pattern.matches_many_seq_iff.mp hblank
    obtain ⟨_,rfl,hblank'⟩ := Pattern.matches_literal_seq_iff.mp hat
    obtain ⟨gap,_,rfl,hgap,hnamed⟩ := Pattern.matches_many_seq_iff.mp hblank'
    obtain ⟨name,_,_,rest,rfl,rfl,hgroup,hclosing⟩ := Pattern.matches_group_seq_iff.mp hnamed
    obtain ⟨hname,rfl⟩ := matches_namePattern_iff.mp hgroup
    obtain ⟨rfl,space,group,back,rfl,hspace,hback,hrest⟩ := matches_closing_iff.mp hclosing
    exact ⟨rfl,rfl,front,gap,name,space,group,back,rest,rfl,rfl,hfront,hgap,hname,hspace,hback,
      hrest⟩
  · rintro ⟨rfl,rfl,front,gap,name,space,group,back,rest,rfl,rfl,hfront,hgap,hname,hspace,hback,
      hrest⟩
    refine Pattern.matches_start_seq_iff.mpr ⟨rfl,?_⟩
    refine Pattern.matches_many_seq_iff.mpr ⟨front,_,rfl,hfront,?_⟩
    refine Pattern.matches_literal_seq_iff.mpr ⟨_,rfl,?_⟩
    refine Pattern.matches_many_seq_iff.mpr ⟨gap,_,rfl,hgap,?_⟩
    refine Pattern.matches_group_seq_iff.mpr ⟨name,_,[],rest,rfl,rfl,?_,?_⟩
    · exact matches_namePattern_iff.mpr ⟨hname,rfl⟩
    · exact matches_closing_iff.mpr ⟨rfl,space,group,back,rfl,hspace,hback,hrest⟩

/-- After a name that a match took there comes nothing that could go on with it. -/
theorem not_continuesName_tail (hword : WordClass word) (hspace : ∀ c ∈ space, isBlank c = true)
    (hgroup : SpellsGroup group arguments) (hafter : ∀ c ∈ after, isBlank c = true) :
    ∀ c ∈ (space ++ (group ++ after)).head?, continuesName word c = false := by
  have hblank : ∀ c, isBlank c = true → continuesName word c = false := by
    intro c hc
    by_contra hcontinues
    rw [Bool.not_eq_false] at hcontinues
    rw [isBlank_of_continuesName hword hcontinues] at hc
    cases hc
  cases space with
  | cons b bs =>
    rintro c ⟨⟩
    exact hblank b (hspace b List.mem_cons_self)
  | nil =>
    cases hgroup with
    | missing =>
      intro c hc
      exact hblank c (hafter c (List.mem_of_mem_head? hc))
    | parenthesized inner =>
      rintro c ⟨⟩
      rw [continuesName,hword.ascii '(' (by decide)]
      decide

theorem exists_spells_of_captures (hword : WordClass word)
    (h : annotationPattern.Captures word text groups) :
    ∃ a, Spells word text a ∧ ofGroups? groups = some a := by
  obtain ⟨before,cs,behind,rfl,hmatch⟩ := h
  obtain ⟨rfl,rfl,front,gap,name,space,group,back,rest,rfl,rfl,hfront,hgap,hname,hspace,hback,
    hrest⟩ := matches_annotationPattern_iff.mp hmatch
  have hlast : ')' ∉ back := fun hmem => absurd (hback ')' hmem) (by decide)
  rw [List.nil_append,List.append_nil]
  have hread : ∃ arguments, SpellsGroup group arguments ∧ ofGroups? ((1,name) :: rest) =
      some ⟨String.ofList name,String.ofList arguments⟩ := by
    rcases hrest with ⟨inner,rfl,rfl⟩ | ⟨rfl,rfl⟩
    · exact ⟨_,.parenthesized inner,rfl⟩
    · exact ⟨_,.missing,rfl⟩
  obtain ⟨arguments,hgroup,hread⟩ := hread
  exact ⟨_,.intro hfront hgap hname (not_continuesName_tail hword hspace hgroup hback) hspace hgroup
    hlast hback,hread⟩

theorem exists_captures_of_spells (h : Spells word text a) :
    ∃ groups, annotationPattern.Captures word text groups := by
  cases h with
  | @intro before gap name space group arguments after hbefore hgap hname _ hspace hgroup _
      hafter =>
    have hrest : ∃ rest : Groups, (∃ inner, group = '(' :: inner ++ [')'] ∧ rest = [(2,inner)]) ∨
        group = [] ∧ rest = [] := by
      cases hgroup with
      | missing => exact ⟨[],.inr ⟨rfl,rfl⟩⟩
      | parenthesized inner => exact ⟨[(2,inner)],.inl ⟨inner,rfl,rfl⟩⟩
    obtain ⟨rest,hrest⟩ := hrest
    refine ⟨(1,name) :: rest,[],_,[],(List.append_nil _).symm,?_⟩
    exact matches_annotationPattern_iff.mpr ⟨rfl,rfl,before,gap,name,space,group,after,rest,rfl,rfl,
      hbefore,hgap,hname,hspace,hafter,hrest⟩

/-- A group stands between the first and the last character that is not white space. -/
theorem SpellsGroup.trimChars_tail (hgroup : SpellsGroup group arguments)
    (hspace : ∀ c ∈ space, isBlank c = true) (hafter : ∀ c ∈ after, isBlank c = true) :
    trimChars (space ++ (group ++ after)) = group := by
  rw [trimChars,dropBlank_append hspace]
  cases hgroup with
  | missing =>
    rw [List.nil_append,dropBlank_of_blank hafter]
    rfl
  | parenthesized inner =>
    have htext : '(' :: inner ++ [')'] ++ after = ('(' :: inner) ++ ')' :: after := by simp
    have hopen : dropBlank (('(' :: inner) ++ ')' :: after) = ('(' :: inner) ++ ')' :: after :=
      List.dropWhile_cons_of_neg (by decide)
    rw [htext,hopen]
    exact dropBlankEnd_append (by decide) ('(' :: inner) hafter

theorem SpellsGroup.unique {arguments' : List Char} (h : SpellsGroup group arguments)
    (h' : SpellsGroup group arguments') : arguments = arguments' := by
  cases h with
  | missing =>
    cases h'
    rfl
  | parenthesized inner =>
    generalize hgroup : '(' :: inner ++ [')'] = group at h'
    cases h' with
    | missing => cases hgroup
    | parenthesized inner' =>
      have hinner := List.append_cancel_right (List.cons.inj hgroup).2
      rw [hinner]

/-- The parts of an annotation are found one after the other. -/
theorem Spells.exists_group (hword : WordClass word) (h : Spells word text a) :
    ∃ rest arguments, rest = dropBlank (dropBlank text).tail ∧
      SpellsGroup (trimChars (rest.dropWhile (continuesName word))) arguments ∧
      a = ⟨String.ofList (rest.takeWhile (continuesName word)),String.ofList arguments⟩ := by
  cases h with
  | @intro before gap name space group arguments after hbefore hgap hname hmaximal hspace hgroup _
      hafter =>
    obtain ⟨c,ds,hcs,hblank,hall⟩ := exists_of_isName hword hname
    have hat : dropBlank (before ++ '@' :: (gap ++ (name ++ (space ++ (group ++ after))))) =
        '@' :: (gap ++ (name ++ (space ++ (group ++ after)))) := by
      rw [dropBlank_append hbefore]
      exact List.dropWhile_cons_of_neg (by decide)
    have hfirst : dropBlank (gap ++ (name ++ (space ++ (group ++ after)))) =
        name ++ (space ++ (group ++ after)) := by
      rw [dropBlank_append hgap,hcs]
      exact List.dropWhile_cons_of_neg (by simp [hblank])
    obtain ⟨htake,hdrop⟩ := takeWhile_maximal hall hmaximal
    refine ⟨name ++ (space ++ (group ++ after)),arguments,?_,?_,?_⟩
    · rw [hat,List.tail_cons,hfirst]
    · rwa [hdrop,hgroup.trimChars_tail hspace hafter]
    · rw [htake]

theorem Spells.unique (hword : WordClass word) (h : Spells word text a) (h' : Spells word text b) :
    a = b := by
  obtain ⟨rest,arguments,rfl,hgroup,rfl⟩ := h.exists_group hword
  obtain ⟨rest,arguments',rfl,hgroup',rfl⟩ := h'.exists_group hword
  rw [hgroup.unique hgroup']

/-- What a matcher finds in a text is the annotation that the text spells. -/
theorem parseWith?_eq_some_iff (hm : m.Lawful) {text : String} :
    parseWith? m text = some a ↔ Spells m.word text.toList a := by
  constructor
  · intro h
    obtain ⟨groups,hgroups,ha⟩ := Option.bind_eq_some_iff.mp h
    obtain ⟨b,hspells,hb⟩ := exists_spells_of_captures hm.wordClass (hm.sound hgroups)
    rw [ha] at hb
    exact Option.some.inj hb ▸ hspells
  · intro h
    obtain ⟨groups,hcaptures⟩ := exists_captures_of_spells h
    obtain ⟨found,hfound⟩ := Option.isSome_iff_exists.mp (hm.complete hcaptures)
    obtain ⟨b,hspells,hb⟩ := exists_spells_of_captures hm.wordClass (hm.sound hfound)
    rw [parseWith?,hfound,Option.bind_some,hb,hspells.unique hm.wordClass h]

theorem SpellsGroup.trimmed (h : SpellsGroup group arguments) :
    trimChars arguments = arguments := by
  cases h with
  | missing => rfl
  | parenthesized inner => exact trimChars_trimChars inner

/-- No white space is needed. -/
theorem spells_tight (hword : WordClass word) (hname : isName word name = true)
    (hgroup : SpellsGroup group arguments) :
    Spells word ('@' :: (name ++ group)) ⟨String.ofList name,String.ofList arguments⟩ := by
  have hnone : ∀ c ∈ ([] : List Char), isBlank c = true := fun c hc => absurd hc List.not_mem_nil
  have hwhole := Spells.intro hnone hnone hname (not_continuesName_tail hword hnone hgroup hnone)
    hnone hgroup List.not_mem_nil hnone
  simpa using hwhole

/-- What is displayed spells the annotation that it displays. -/
theorem spells_render (hword : WordClass word) (h : Spells word text a) :
    Spells word a.render.toList a := by
  cases h with
  | @intro before gap name space group arguments after _ _ hname _ _ hgroup _ _ =>
    by_cases harguments : arguments = []
    · subst harguments
      simpa [render] using spells_tight hword hname .missing
    · have hgroup : SpellsGroup ('(' :: arguments ++ [')']) arguments := by
        have hinner := SpellsGroup.parenthesized arguments
        rwa [hgroup.trimmed] at hinner
      have hne : String.ofList arguments ≠ "" := by simpa using harguments
      simpa [render,hne] using spells_tight hword hname hgroup

/-- Whatever finds matches of the pattern, what is read as an annotation is what spells one, and it
means what it spells. An annotation that was read is read again from the way it is displayed. -/
theorem parse_iff_spells (hm : m.Lawful) (text : String) :
    (∀ a, parseWith? m text = some a ↔ Spells m.word text.toList a) ∧
    ∀ a, parseWith? m text = some a → parseWith? m a.render = some a := by
  refine ⟨fun _ => parseWith?_eq_some_iff hm,fun a h => ?_⟩
  apply (parseWith?_eq_some_iff hm).mpr
  exact spells_render hm.wordClass ((parseWith?_eq_some_iff hm).mp h)

/-- The group of a column goes on to the last parenthesis. -/
theorem parse_iff_spells_column :
    Matcher.backtracking.Lawful ∧
    parse? " @ javax.Column\t( name = \"(a)\" ) " = some ⟨"javax.Column","name = \"(a)\""⟩ ∧
    parse? (render ⟨"javax.Column","name = \"(a)\""⟩) =
      some ⟨"javax.Column","name = \"(a)\""⟩ := by
  have hread : parse? " @ javax.Column\t( name = \"(a)\" ) " =
      some ⟨"javax.Column","name = \"(a)\""⟩ := by
    decide +kernel
  exact ⟨Matcher.backtracking_lawful,hread,
    (parse_iff_spells Matcher.backtracking_lawful _).2 _ hread⟩

/-- A letter of a late version of Unicode may stand in a name. -/
example : parse? (String.ofList ['@','A',Char.ofNat 0x31350]) =
    some ⟨String.ofList ['A',Char.ofNat 0x31350],""⟩ := by
  decide +kernel

end Reading

end AnnotationText

end EntityLink
