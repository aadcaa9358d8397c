import EntityLink.Text.Pattern

namespace EntityLink.Text

namespace Pattern

variable {word : Char → Bool} {p q : Pattern} {k : CharClass} {before cs after text : List Char}
  {groups : Groups}

section Inversion

theorem matches_nothing_iff :
    nothing.Matches word before cs after groups ↔ cs = [] ∧ groups = [] := by
  constructor
  · rintro ⟨⟩
    exact ⟨rfl,rfl⟩
  · rintro ⟨rfl,rfl⟩
    exact .nothing

theorem matches_start_iff :
    start.Matches word before cs after groups ↔ before = [] ∧ cs = [] ∧ groups = [] := by
  constructor
  · rintro ⟨⟩
    exact ⟨rfl,rfl,rfl⟩
  · rintro ⟨rfl,rfl,rfl⟩
    exact .start

theorem matches_finish_iff :
    finish.Matches word before cs after groups ↔ after = [] ∧ cs = [] ∧ groups = [] := by
  constructor
  · rintro ⟨⟩
    exact ⟨rfl,rfl,rfl⟩
  · rintro ⟨rfl,rfl,rfl⟩
    exact .finish

theorem matches_one_iff : (one k).Matches word before cs after groups ↔
    (∃ c, k.holds word c = true ∧ cs = [c]) ∧ groups = [] := by
  constructor
  · rintro ⟨⟩
    exact ⟨⟨_,‹_›,rfl⟩,rfl⟩
  · rintro ⟨⟨c,hc,rfl⟩,rfl⟩
    exact .one hc

theorem matches_many_iff : (many k).Matches word before cs after groups ↔
    (∀ c ∈ cs, k.holds word c = true) ∧ groups = [] := by
  constructor
  · rintro ⟨⟩
    exact ⟨‹_›,rfl⟩
  · rintro ⟨hcs,rfl⟩
    exact .many hcs

/-- What the second pattern matches stands behind what the first one matches. -/
theorem matches_seq_iff : (seq p q).Matches word before cs after groups ↔
    ∃ ds es front back, cs = ds ++ es ∧ groups = front ++ back ∧
      p.Matches word before ds (es ++ after) front ∧
      q.Matches word (before ++ ds) es after back := by
  constructor
  · rintro ⟨⟩
    exact ⟨_,_,_,_,rfl,rfl,‹_›,‹_›⟩
  · rintro ⟨ds,es,front,back,rfl,rfl,hp,hq⟩
    exact .seq hp hq

theorem matches_optional_iff : (optional p).Matches word before cs after groups ↔
    p.Matches word before cs after groups ∨ cs = [] ∧ groups = [] := by
  constructor
  · rintro ⟨⟩
    · exact .inr ⟨rfl,rfl⟩
    · exact .inl ‹_›
  · rintro (hp | ⟨rfl,rfl⟩)
    · exact .present hp
    · exact .missing

theorem matches_group_iff {number : Nat} :
    (group number p).Matches word before cs after groups ↔
      ∃ inner, groups = inner ++ [(number,cs)] ∧ p.Matches word before cs after inner := by
  constructor
  · rintro ⟨⟩
    exact ⟨_,rfl,‹_›⟩
  · rintro ⟨inner,rfl,hp⟩
    exact .group number hp

theorem matches_literal_iff {text : List Char} :
    (literal text).Matches word before cs after groups ↔ cs = text ∧ groups = [] := by
  rw [literal]
  induction text generalizing before cs groups with
  | nil => exact matches_nothing_iff
  | cons c text ih =>
    rw [List.map_cons,all,List.foldr_cons,matches_seq_iff]
    constructor
    · rintro ⟨ds,es,front,back,rfl,rfl,hone,hrest⟩
      obtain ⟨⟨d,hd,rfl⟩,rfl⟩ := matches_one_iff.mp hone
      obtain ⟨rfl,rfl⟩ := ih.mp hrest
      exact ⟨by rw [eq_of_beq hd,List.singleton_append],rfl⟩
    · rintro ⟨rfl,rfl⟩
      exact ⟨[c],text,[],[],rfl,rfl,.one (beq_self_eq_true c),ih.mpr ⟨rfl,rfl⟩⟩

/-! The same where another pattern follows. -/

/-- A pattern without groups leaves them to what follows it. -/
theorem matches_silent_seq_iff {P : List Char → List Char → Prop}
    (hp : ∀ {before cs after groups}, p.Matches word before cs after groups ↔
      P before cs ∧ groups = []) :
    (seq p q).Matches word before cs after groups ↔
      ∃ ds es, cs = ds ++ es ∧ P before ds ∧ q.Matches word (before ++ ds) es after groups := by
  rw [matches_seq_iff]
  constructor
  · rintro ⟨ds,es,front,back,rfl,rfl,hfirst,hq⟩
    obtain ⟨hds,rfl⟩ := hp.mp hfirst
    exact ⟨ds,es,rfl,hds,hq⟩
  · rintro ⟨ds,es,rfl,hds,hq⟩
    exact ⟨ds,es,[],groups,rfl,rfl,hp.mpr ⟨hds,rfl⟩,hq⟩

theorem matches_start_seq_iff : (seq start q).Matches word before cs after groups ↔
    before = [] ∧ q.Matches word before cs after groups := by
  rw [matches_silent_seq_iff (matches_start_iff.trans and_assoc.symm)]
  constructor
  · rintro ⟨_,es,rfl,⟨rfl,rfl⟩,hq⟩
    exact ⟨rfl,hq⟩
  · rintro ⟨rfl,hq⟩
    exact ⟨[],cs,rfl,⟨rfl,rfl⟩,hq⟩

theorem matches_many_seq_iff : (seq (many k) q).Matches word before cs after groups ↔
    ∃ ds es, cs = ds ++ es ∧ (∀ c ∈ ds, k.holds word c = true) ∧
      q.Matches word (before ++ ds) es after groups :=
  matches_silent_seq_iff matches_many_iff

theorem matches_literal_seq_iff {text : List Char} :
    (seq (literal text) q).Matches word before cs after groups ↔
      ∃ es, cs = text ++ es ∧ q.Matches word (before ++ text) es after groups := by
  rw [matches_silent_seq_iff matches_literal_iff]
  constructor
  · rintro ⟨_,es,rfl,rfl,hq⟩
    exact ⟨es,rfl,hq⟩
  · rintro ⟨es,rfl,hq⟩
    exact ⟨text,es,rfl,rfl,hq⟩

theorem matches_group_seq_iff {number : Nat} :
    (seq (group number p) q).Matches word before cs after groups ↔
      ∃ ds es inner back, cs = ds ++ es ∧ groups = inner ++ (number,ds) :: back ∧
        p.Matches word before ds (es ++ after) inner ∧
        q.Matches word (before ++ ds) es after back := by
  rw [matches_seq_iff]
  constructor
  · rintro ⟨ds,es,front,back,rfl,rfl,hp,hq⟩
    obtain ⟨inner,rfl,hinner⟩ := matches_group_iff.mp hp
    exact ⟨ds,es,inner,back,rfl,List.append_cons inner (number,ds) back ▸ rfl,hinner,hq⟩
  · rintro ⟨ds,es,inner,back,rfl,rfl,hp,hq⟩
    exact ⟨ds,es,_,back,rfl,List.append_cons inner (number,ds) back,.group number hp,hq⟩

theorem matches_seq_nothing_iff : (seq p nothing).Matches word before cs after groups ↔
    p.Matches word before cs after groups := by
  rw [matches_seq_iff]
  constructor
  · rintro ⟨ds,es,front,back,rfl,rfl,hp,hq⟩
    obtain ⟨rfl,rfl⟩ := matches_nothing_iff.mp hq
    rwa [List.append_nil,List.append_nil]
  · intro hp
    exact ⟨cs,[],groups,[],(List.append_nil cs).symm,(List.append_nil groups).symm,hp,.nothing⟩

end Inversion

section Ways

variable {rest : List Char}

theorem mem_beginnings_iff {holds : Char → Bool} :
    (cs,rest) ∈ beginnings holds text ↔ text = cs ++ rest ∧ ∀ c ∈ cs, holds c = true := by
  constructor
  · intro h
    induction text generalizing cs with
    | nil =>
      obtain ⟨rfl,rfl⟩ := Prod.mk.inj (List.mem_singleton.mp h)
      exact ⟨rfl,fun c hc => absurd hc List.not_mem_nil⟩
    | cons c text ih =>
      by_cases hc : holds c = true
      · rw [beginnings,if_pos hc] at h
        rcases List.mem_append.mp h with h | h
        · obtain ⟨⟨ds,back⟩,hds,heq⟩ := List.mem_map.mp h
          obtain ⟨rfl,rfl⟩ := Prod.mk.inj heq
          obtain ⟨rfl,hall⟩ := ih hds
          exact ⟨rfl,List.forall_mem_cons.mpr ⟨hc,hall⟩⟩
        · obtain ⟨rfl,rfl⟩ := Prod.mk.inj (List.mem_singleton.mp h)
          exact ⟨rfl,fun d hd => absurd hd List.not_mem_nil⟩
      · rw [beginnings,if_neg hc] at h
        obtain ⟨rfl,rfl⟩ := Prod.mk.inj (List.mem_singleton.mp h)
        exact ⟨rfl,fun d hd => absurd hd List.not_mem_nil⟩
  · rintro ⟨rfl,hall⟩
    induction cs with
    | nil =>
      cases rest with
      | nil => exact List.mem_singleton_self _
      | cons d rest =>
        rw [List.nil_append,beginnings]
        split
        · exact List.mem_append_right _ (List.mem_singleton_self _)
        · exact List.mem_singleton_self _
    | cons c cs ih =>
      obtain ⟨hc,hall⟩ := List.forall_mem_cons.mp hall
      rw [List.cons_append,beginnings,if_pos hc]
      exact List.mem_append_left _ (List.mem_map_of_mem (ih hall))

theorem empty_way_iff : (⟨cs,rest,groups⟩ : Way) = ⟨[],text,[]⟩ ↔
    text = cs ++ rest ∧ cs = [] ∧ groups = [] := by
  constructor
  · rintro ⟨⟩
    exact ⟨rfl,rfl,rfl⟩
  · rintro ⟨rfl,rfl,rfl⟩
    rfl

/-- The ways of a pattern are its matches at the front of the text. -/
theorem mem_ways_iff : (⟨cs,rest,groups⟩ : Way) ∈ p.ways word before text ↔
    text = cs ++ rest ∧ p.Matches word before cs rest groups := by
  induction p generalizing before text cs rest groups with
  | nothing => rw [ways,List.mem_singleton,empty_way_iff,matches_nothing_iff]
  | start =>
    rw [ways,List.mem_ite_nil_right,List.mem_singleton,empty_way_iff,matches_start_iff,
      List.isEmpty_iff]
    exact and_left_comm
  | finish =>
    rw [ways,List.mem_ite_nil_right,List.mem_singleton,empty_way_iff,matches_finish_iff,
      List.isEmpty_iff]
    constructor
    · rintro ⟨rfl,htext,rfl,rfl⟩
      exact ⟨htext,htext.symm,rfl,rfl⟩
    · rintro ⟨rfl,rfl,rfl,rfl⟩
      exact ⟨rfl,rfl,rfl,rfl⟩
  | one k =>
    rw [matches_one_iff]
    cases text with
    | nil =>
      constructor
      · exact fun h => absurd h List.not_mem_nil
      · rintro ⟨htext,⟨c,-,rfl⟩,-⟩
        cases htext
    | cons c text =>
      rw [ways,List.mem_ite_nil_right,List.mem_singleton]
      constructor
      · rintro ⟨hc,⟨⟩⟩
        exact ⟨rfl,⟨c,hc,rfl⟩,rfl⟩
      · rintro ⟨htext,⟨d,hd,rfl⟩,rfl⟩
        cases htext
        exact ⟨hd,rfl⟩
  | many k =>
    rw [ways,matches_many_iff,← and_assoc,← mem_beginnings_iff]
    constructor
    · intro h
      obtain ⟨b,hb,⟨⟩⟩ := List.mem_map.mp h
      exact ⟨hb,rfl⟩
    · rintro ⟨hb,rfl⟩
      exact List.mem_map_of_mem hb
  | seq p q ihp ihq =>
    rw [ways,matches_seq_iff]
    constructor
    · intro h
      obtain ⟨w,hw,h⟩ := List.mem_flatMap.mp h
      obtain ⟨v,hv,⟨⟩⟩ := List.mem_map.mp h
      obtain ⟨rfl,hp⟩ := ihp.mp hw
      obtain ⟨hrest,hq⟩ := ihq.mp hv
      rw [hrest] at hp ⊢
      exact ⟨(List.append_assoc _ _ _).symm,_,_,_,_,rfl,rfl,hp,hq⟩
    · rintro ⟨rfl,ds,es,front,back,rfl,rfl,hp,hq⟩
      refine List.mem_flatMap.mpr ⟨_,ihp.mpr ⟨List.append_assoc ds es rest,hp⟩,?_⟩
      exact List.mem_map.mpr ⟨_,ihq.mpr ⟨rfl,hq⟩,rfl⟩
  | optional p ih =>
    rw [ways,List.mem_append,List.mem_singleton,ih,empty_way_iff,matches_optional_iff,and_or_left]
  | group number p ih =>
    rw [ways,matches_group_iff]
    constructor
    · intro h
      obtain ⟨w,hw,⟨⟩⟩ := List.mem_map.mp h
      obtain ⟨htext,hp⟩ := ih.mp hw
      exact ⟨htext,_,rfl,hp⟩
    · rintro ⟨htext,inner,rfl,hp⟩
      exact List.mem_map.mpr ⟨_,ih.mpr ⟨htext,hp⟩,rfl⟩

end Ways

section Search

/-- What a search finds is a match that begins where the search did or behind that. -/
theorem exists_of_search? (h : p.search? word before text = some groups) :
    ∃ gap cs after, text = gap ++ (cs ++ after) ∧
      p.Matches word (before ++ gap) cs after groups := by
  have hhere : ∀ {before text : List Char} {w : Way}, w ∈ p.ways word before text →
      ∃ gap cs after, text = gap ++ (cs ++ after) ∧
        p.Matches word (before ++ gap) cs after w.groups := by
    intro before text w hw
    obtain ⟨htext,hmatch⟩ := mem_ways_iff.mp hw
    exact ⟨[],w.matched,w.rest,htext,by rwa [List.append_nil]⟩
  induction text generalizing before with
  | nil =>
    obtain ⟨w,hw,rfl⟩ := Option.map_eq_some_iff.mp h
    exact hhere (List.mem_of_head? hw)
  | cons c text ih =>
    rw [search?] at h
    split at h
    · rename_i w ws hways
      obtain rfl := Option.some.inj h
      exact hhere (hways ▸ List.mem_cons_self)
    · obtain ⟨gap,cs,after,rfl,hmatch⟩ := ih h
      rw [List.append_assoc] at hmatch
      exact ⟨c :: gap,cs,after,rfl,hmatch⟩

/-- A search finds something wherever there is a match. -/
theorem isSome_search? {gap : List Char}
    (h : p.Matches word (before ++ gap) cs after groups) :
    (p.search? word before (gap ++ (cs ++ after))).isSome = true := by
  have hhere : ∀ {before : List Char}, p.Matches word before cs after groups →
      (p.search? word before (cs ++ after)).isSome = true := by
    intro before hmatch
    have hmem := mem_ways_iff.mpr ⟨rfl,hmatch⟩
    obtain ⟨w,ws,hways⟩ := List.exists_cons_of_ne_nil (List.ne_nil_of_mem hmem)
    generalize cs ++ after = text at hways
    cases text with
    | nil => simp [search?,hways]
    | cons c text => simp [search?,hways]
  induction gap generalizing before with
  | nil => exact hhere (by rwa [List.append_nil] at h)
  | cons c gap ih =>
    rw [List.cons_append,search?]
    split
    · rfl
    · exact ih (by rwa [List.append_assoc])

end Search

end Pattern

/-- The code points of white space. -/
def blanks : List Nat :=
  List.range' 9 5 ++ [0x20,0x85,0xA0,0x1680] ++ List.range' 0x2000 11 ++
    [0x2028,0x2029,0x202F,0x205F,0x3000]

theorem isBlank_iff {c : Char} : isBlank c = true ↔ c.toNat ∈ blanks := by
  simp only [isBlank,blanks,Bool.or_eq_true,Bool.and_eq_true,decide_eq_true_eq,beq_iff_eq,
    List.mem_append,List.mem_range'_1,List.mem_cons,List.not_mem_nil,or_false]
  omega

theorem isWord_wordClass : WordClass isWord where
  ascii := fun _ hc => if_pos hc
  blank := by
    intro c hc
    have hall : ∀ n ∈ blanks, isWord (Char.ofNat n) = false := by decide +kernel
    have hword := hall c.toNat (isBlank_iff.mp hc)
    rwa [Char.ofNat_toNat] at hword

/-- A matcher that tries one way after the other meets what is asked of matchers. -/
theorem Matcher.backtracking_lawful : Matcher.backtracking.Lawful where
  wordClass := isWord_wordClass
  sound := Pattern.exists_of_search?
  complete := by
    rintro p text groups ⟨gap,cs,after,rfl,hmatch⟩
    exact Pattern.isSome_search? hmatch

end EntityLink.Text
