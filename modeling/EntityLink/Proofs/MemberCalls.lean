import EntityLink.Link.Style
import EntityLink.Proofs.CallSites
import EntityLink.Proofs.MemberNaming

namespace EntityLink
open Java

namespace Java

/-- How far the calls of methods of each kind can nest. -/
def MethodKind.rank : MethodKind → Nat
  | getter | internalSetter | internalRemover | orphanHook => 0
  | internalAdder | counter | predicate | validator => 1
  | adder | remover | clearer => 2
  | setter => 3

end Java

/-- The members by which the inverse side reaches a field: kind, name and number of arguments. -/
inductive MemberNames.Entry (n : MemberNames) (collection : Bool) : MethodKind → String → Nat → Prop
  | getter : Entry n collection .getter n.getter 0
  | internalSetter : Entry n collection .internalSetter n.internalSetter 1
  | internalAdder (many : collection = true) :
      Entry n collection .internalAdder n.internalAdder 1
  | internalRemover (many : collection = true) :
      Entry n collection .internalRemover n.internalRemover 1

theorem MemberNames.Entry.mem_table {n : MemberNames} {collection : Bool} {k : MethodKind}
    {name : String} {arity : Nat} (h : n.Entry collection k name arity) : (k,name) ∈ n.table := by
  cases h with
  | getter | internalSetter | internalAdder | internalRemover => simp [table]

theorem MemberNames.Entry.kind_cases {n : MemberNames} {collection : Bool} {k : MethodKind}
    {name : String} {arity : Nat} (h : n.Entry collection k name arity) :
    k = .getter ∨ k.isInternal = true := by
  cases h with
  | getter => exact .inl rfl
  | internalSetter | internalAdder | internalRemover => exact .inr rfl

namespace Link

/-- The variables that hold a value of the field: an argument, an element, or what it held
before. -/
def valueNames (l : Link) : AccessorStyle → List String
  | .single => [l.valueParam,previousLocal l.field]
  | .many => [l.elementParam]
  | .plain => []

/-- The variables that hold another owner of a value: its previous one, or one displaced. -/
def ownerNames (l : Link) : AccessorStyle → List String
  | .single => ["displaced" ++ l.sourceType]
  | .many => (l.inverse.map (fun i => previousLocal i.field)).toList
  | .plain => []

/-- The calls that members of kind `k` make: on collections, on the object itself, on a value of
the field through the inverse side, and on another owner. Calls on entities go to members of a
lower rank. -/
inductive Calls (l : Link) (style : AccessorStyle) (k : MethodKind) : Expr → Prop
  | collection {receiver : Expr} {name : String} {arguments : List Expr}
      (foreign : receiver ≠ .this) (known : name ∈ collectionMethods) :
      Calls l style k (.call receiver name arguments)
  | own (k' : MethodKind) {name : String} {arguments : List Expr}
      (known : (k',name) ∈ l.names.table) (lower : k'.rank < k.rank) :
      Calls l style k (.call .this name arguments)
  | value {i : Inverse} {x : String} {k' : MethodKind} {name : String} {arguments : List Expr}
      (inverse : l.inverse = some i) (held : x ∈ l.valueNames style)
      (entry : i.names.Entry i.collection k' name arguments.length) (lower : k'.rank < k.rank) :
      Calls l style k (.call (.var x) name arguments)
  | owner {i : Inverse} {x : String} {k' : MethodKind} {name : String} {arguments : List Expr}
      (inverse : l.inverse = some i) (held : x ∈ l.ownerNames style)
      (entry : l.names.Entry (style == .many) k' name arguments.length)
      (lower : k'.rank < k.rank) : Calls l style k (.call (.var x) name arguments)

section Fragments

variable {l : Link} {i : Inverse} {style : AccessorStyle} {k : MethodKind}

theorem Calls.getter (hk : 0 < k.rank) : l.Calls style k (.call .this l.names.getter []) :=
  .own .getter (by simp [MemberNames.table]) hk

theorem Calls.live {name : String} (hname : name ∈ collectionMethods) (arguments : List Expr) :
    l.Calls style k (.call l.live name arguments) :=
  .collection (by simp [Link.live,Expr.callThis]) hname

theorem Calls.hook (hk : 0 < k.rank) (arguments : List Expr) :
    l.Calls style k (.call .this l.names.orphanHook arguments) :=
  .own .orphanHook (by simp [MemberNames.table]) hk

attribute [local simp] Expr.thisField Expr.callThis Expr.createDiamond Expr.isNull Expr.notNull
  Stmt.returnIf

theorem calls_detach (hi : l.inverse = some i) (hk : 0 < k.rank) {x : String}
    (hx : x ∈ l.valueNames .single) :
    ∀ e ∈ callsAll [.eval (detach i (.var x))], l.Calls .single k e := by
  unfold detach
  split
  · rename_i hmany
    simp
    exact .value hi hx (.internalRemover hmany) hk
  · simp
    exact .value hi hx .internalSetter hk

theorem calls_releaseDisplaced (hi : l.inverse = some i) (hk : 0 < k.rank) :
    ∀ e ∈ callsAll [l.releaseDisplaced i], l.Calls .single k e := by
  have hvalue : l.valueParam ∈ l.valueNames .single := by simp [valueNames]
  have howner : "displaced" ++ l.sourceType ∈ l.ownerNames .single := by simp [ownerNames]
  simp [releaseDisplaced]
  exact ⟨.value hi hvalue .getter hk,.owner hi howner .internalSetter hk⟩

theorem calls_attach (hi : l.inverse = some i) (hk : 1 < k.rank) :
    ∀ e ∈ callsAll [l.attach i], l.Calls .single k e := by
  have hvalue : l.valueParam ∈ l.valueNames .single := by simp [valueNames]
  have hpos : 0 < k.rank := Nat.zero_lt_of_lt hk
  simp only [attach]
  split
  · rename_i hmany
    simp
    exact ⟨.collection (by simp) (by decide),.value hi hvalue .getter hpos,
      .value hi hvalue (.internalAdder hmany) hk⟩
  · simp
    exact ⟨.value hi hvalue .getter hpos,.value hi hvalue .internalSetter hpos⟩

theorem calls_singleSetter : ∀ e ∈ callsAll l.singleSetter.body, l.Calls .single .setter e := by
  have hprevious : previousLocal l.field ∈ l.valueNames .single := by simp [valueNames]
  simp only [singleSetter,singleSetterBody,callsAll_cons,callsAll_append,List.forall_mem_append]
  refine ⟨?_,⟨⟨⟨?_,?_⟩,?_⟩,?_⟩,?_⟩
  · simp
  · split
    · simp
    · simp
  · cases hi : l.inverse with
    | none => simp
    | some i =>
      rw [callsAll_cons,Stmt.calls_when]
      simp only [List.forall_mem_append]
      refine ⟨⟨by simp,calls_detach hi (by decide) hprevious⟩,?_⟩
      split
      · exact calls_releaseDisplaced hi (by decide)
      · simp
  · simp
  · cases hi : l.inverse with
    | none => simp
    | some i => exact calls_attach hi (by decide)
  · split
    · simpa using .hook (by decide) _
    · simp

theorem calls_linkElement (hi : l.inverse = some i) (hk : 1 < k.rank) :
    ∀ e ∈ callsAll (l.linkElement i), l.Calls .many k e := by
  have hvalue : l.elementParam ∈ l.valueNames .many := by simp [valueNames]
  have howner : previousLocal i.field ∈ l.ownerNames .many := by simp [ownerNames,hi]
  have hpos : 0 < k.rank := Nat.zero_lt_of_lt hk
  simp only [linkElement]
  split
  · rename_i hmany
    simp
    exact .value hi hvalue (.internalAdder hmany) hk
  · simp
    exact ⟨.value hi hvalue .getter hpos,.owner hi howner (.internalRemover rfl) hpos,
      .value hi hvalue .internalSetter hpos⟩

theorem calls_unlinkElement (hi : l.inverse = some i) (hk : 0 < k.rank) :
    ∀ e ∈ callsAll [l.unlinkElement i], l.Calls .many k e := by
  have hvalue : l.elementParam ∈ l.valueNames .many := by simp [valueNames]
  simp only [unlinkElement]
  split
  · rename_i hmany
    simp
    exact .value hi hvalue (.internalRemover hmany) hk
  · simp
    exact ⟨.value hi hvalue .getter hk,.value hi hvalue .internalSetter hk⟩

theorem calls_afterRemoval (h : ∀ i, l.inverse = some i → style = .many) (hk : 0 < k.rank) :
    ∀ e ∈ callsAll l.afterRemoval, l.Calls style k e := by
  rw [afterRemoval,callsAll_append,List.forall_mem_append]
  constructor
  · cases hi : l.inverse with
    | none => simp
    | some i =>
      obtain rfl := h i hi
      exact calls_unlinkElement hi hk
  · split
    · simp
      exact .hook hk _
    · simp

theorem calls_adder (h : ∀ i, l.inverse = some i → style = .many) :
    ∀ e ∈ callsAll l.adder.body, l.Calls style .adder e := by
  simp only [adder,callsAll_append,List.forall_mem_append]
  refine ⟨⟨?_,?_⟩,?_⟩
  · simp [holds,live]
    exact ⟨.live (by decide) _,.getter (by decide),.live (by decide) _,.getter (by decide)⟩
  · cases hi : l.inverse with
    | none => simp
    | some i =>
      obtain rfl := h i hi
      exact calls_linkElement hi (by decide)
  · simp

theorem calls_remover (h : ∀ i, l.inverse = some i → style = .many) :
    ∀ e ∈ callsAll l.remover.body, l.Calls style .remover e := by
  simp only [remover,callsAll_append,List.forall_mem_append]
  refine ⟨⟨?_,calls_afterRemoval h (by decide)⟩,?_⟩
  · simp [holds,live]
    exact ⟨.live (by decide) _,.getter (by decide),.live (by decide) _,.getter (by decide)⟩
  · simp

theorem calls_clearer (h : ∀ i, l.inverse = some i → style = .many) :
    ∀ e ∈ callsAll l.clearer.body, l.Calls style .clearer e := by
  have hclear : ∀ e ∈ (Expr.call l.live "clear" []).calls, l.Calls style .clearer e := by
    simpa [live] using ⟨.live (by decide) _,.getter (by decide)⟩
  simp only [clearer]
  split
  · simpa using hclear
  · simp only [callsAll_cons,callsAll_nil,List.append_nil,Stmt.calls_eval,Stmt.calls_forEach,
      List.forall_mem_append]
    refine ⟨?_,hclear,by simp,calls_afterRemoval h (by decide)⟩
    simpa [live] using .getter (by decide)

theorem calls_manySetter : ∀ e ∈ callsAll l.manySetter.body, l.Calls style .setter e := by
  simp [manySetter]
  exact ⟨.own .clearer (by simp [MemberNames.table]) (by decide),
    .own .adder (by simp [MemberNames.table]) (by decide)⟩

theorem calls_internalAdder :
    ∀ e ∈ callsAll l.internalAdder.body, l.Calls style .internalAdder e := by
  simpa [internalAdder,holds,live] using ⟨.live (by decide) _,.getter (by decide),
    .live (by decide) _,.getter (by decide)⟩

theorem calls_internalRemover :
    ∀ e ∈ callsAll l.internalRemover.body, l.Calls style .internalRemover e := by
  simpa [internalRemover] using .collection (by simp) (by decide)

theorem calls_counter : ∀ e ∈ callsAll l.counter.body, l.Calls style .counter e := by
  simpa [counter,live] using ⟨.live (by decide) _,.getter (by decide)⟩

theorem calls_elementPredicate :
    ∀ e ∈ callsAll l.elementPredicate.body, l.Calls style .predicate e := by
  simpa [elementPredicate,holds,live] using ⟨.live (by decide) _,.getter (by decide)⟩

end Fragments

variable {l : Link} {style : AccessorStyle}

/-- A method of the field: it has a name that is made for its kind, and calls only what that kind
may. -/
def Member (l : Link) (style : AccessorStyle) (m : Method) : Prop :=
  (m.kind,m.name) ∈ l.names.table ∧ ∀ e ∈ callsAll m.body, l.Calls style m.kind e

attribute [local simp] MemberNames.table

theorem member_singleGetter : l.Member style l.singleGetter :=
  ⟨by simp [singleGetter],by simp [singleGetter,Expr.thisField]⟩

theorem member_plainSetter : l.Member style l.plainSetter :=
  ⟨by simp [plainSetter],by simp [plainSetter,Expr.thisField]⟩

theorem member_orphanHook (param : String) : l.Member style (l.orphanHook param) :=
  ⟨by simp [orphanHook],by simp [orphanHook]⟩

theorem member_singleAccessors : ∀ m ∈ l.singleAccessors, l.Member .single m := by
  have hsetter : l.Member .single l.singleSetter := ⟨by simp [singleSetter],calls_singleSetter⟩
  have hinternal : l.Member .single l.singleInternalSetter :=
    ⟨by simp [singleInternalSetter],by simp [singleInternalSetter,Expr.thisField]⟩
  simp only [singleAccessors,List.forall_mem_append,List.forall_mem_cons]
  refine ⟨⟨⟨member_singleGetter,hsetter,by simp⟩,?_⟩,?_⟩
  · split
    · simpa using hinternal
    · simp
  · split
    · simpa using member_orphanHook l.valueParam
    · simp

theorem member_collectionAccessors (h : ∀ i, l.inverse = some i → style = .many) :
    ∀ m ∈ l.collectionAccessors, l.Member style m := by
  have hgetter : l.Member style l.manyGetter :=
    ⟨by simp [manyGetter],
      by simp [manyGetter,Expr.isNull,Expr.thisField,Expr.createDiamond]⟩
  have hsetter : l.Member style l.manySetter := ⟨by simp [manySetter],calls_manySetter⟩
  have hadder : l.Member style l.adder := ⟨by simp [adder],calls_adder h⟩
  have hremover : l.Member style l.remover := ⟨by simp [remover],calls_remover h⟩
  have hclearer : l.Member style l.clearer := ⟨by simp [clearer],calls_clearer h⟩
  simpa [collectionAccessors] using ⟨hgetter,hsetter,hadder,hremover,hclearer⟩

theorem member_manyAccessors : ∀ m ∈ l.manyAccessors, l.Member .many m := by
  have hadder : l.Member .many l.internalAdder := ⟨by simp [internalAdder],calls_internalAdder⟩
  have hremover : l.Member .many l.internalRemover :=
    ⟨by simp [internalRemover],calls_internalRemover⟩
  have hsetter : l.Member .many l.manyInternalSetter :=
    ⟨by simp [manyInternalSetter],by simp [manyInternalSetter,Expr.thisField]⟩
  simp only [manyAccessors,List.forall_mem_append]
  refine ⟨⟨member_collectionAccessors (fun _ _ => rfl),?_⟩,?_⟩
  · split
    · simpa using ⟨hadder,hremover,hsetter⟩
    · simp
  · split
    · simpa using member_orphanHook l.elementParam
    · simp

theorem member_helpers : ∀ m ∈ l.helpers, l.Member style m := by
  have hcounter : l.Member style l.counter := ⟨by simp [counter],calls_counter⟩
  have helement : l.Member style l.elementPredicate :=
    ⟨by simp [elementPredicate],calls_elementPredicate⟩
  have hpresence : l.Member style l.presencePredicate :=
    ⟨by simp [presencePredicate],by simp [presencePredicate,Expr.notNull,Expr.thisField]⟩
  unfold helpers
  split
  · simpa using ⟨hcounter,helement⟩
  · simpa using hpresence

/-- Every accessor of a field is a member. Plain values have no inverse side. -/
theorem member_accessors (h : style = .plain → l.inverse = none) :
    ∀ m ∈ l.accessors style, l.Member style m := by
  cases style with
  | single => exact member_singleAccessors
  | many => exact member_manyAccessors
  | plain =>
    simp only [accessors,plainAccessors]
    split
    · exact member_collectionAccessors (fun i hi => by simp [h rfl] at hi)
    · simpa using ⟨member_singleGetter,member_plainSetter⟩

/-- A field with an inverse side has every member that this side calls. -/
theorem exists_accessor_of_entry (hstyle : style ≠ .plain) (hi : l.inverse.isSome)
    {k : MethodKind} {name : String} {arity : Nat}
    (h : l.names.Entry (style == .many) k name arity) :
    ∃ m ∈ l.accessors style, m.kind = k ∧ m.name = name ∧ m.params.length = arity := by
  cases style with
  | plain => exact absurd rfl hstyle
  | single =>
    cases h with
    | getter => exact ⟨l.singleGetter,by simp [accessors,singleAccessors],rfl,rfl,rfl⟩
    | internalSetter =>
      exact ⟨l.singleInternalSetter,by simp [accessors,singleAccessors,hi],rfl,rfl,rfl⟩
    | internalAdder many => cases many
    | internalRemover many => cases many
  | many =>
    cases h with
    | getter =>
      exact ⟨l.manyGetter,by simp [accessors,manyAccessors,collectionAccessors],rfl,rfl,rfl⟩
    | internalSetter =>
      exact ⟨l.manyInternalSetter,by simp [accessors,manyAccessors,hi],rfl,rfl,rfl⟩
    | internalAdder => exact ⟨l.internalAdder,by simp [accessors,manyAccessors,hi],rfl,rfl,rfl⟩
    | internalRemover => exact ⟨l.internalRemover,by simp [accessors,manyAccessors,hi],rfl,rfl,rfl⟩

end Link

end EntityLink
