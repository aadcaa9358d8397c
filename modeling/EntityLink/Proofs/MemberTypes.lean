import EntityLink.Java.Walk
import EntityLink.Proofs.GeneratedEntities

namespace EntityLink
open Java

namespace Java

/-- The type of a new object. -/
def Expr.created? : Expr → Option String
  | .create type _ => some type
  | _ => none

/-- The types of the new objects in an expression. -/
def Expr.created (e : Expr) : List String :=
  e.subexprs.filterMap created?

def Stmt.created (s : Stmt) : List String :=
  s.exprs.filterMap Expr.created?

/-- The types of the new objects in a block. -/
def createdAll (ss : List Stmt) : List String :=
  ss.flatMap Stmt.created

mutual

/-- The types of the locals and loop variables that a statement declares, within other statements
too. -/
def Stmt.localTypes : Stmt → List String
  | .ifElse _ t f => localTypesAll t ++ localTypesAll f
  | .declare t _ _ => [t]
  | .forEach t _ _ body => t :: localTypesAll body
  | .ret _ | .assign .. | .eval _ | .comment _ => []

def localTypesAll : List Stmt → List String
  | [] => []
  | s :: ss => s.localTypes ++ localTypesAll ss

end

/-- The types of the new objects in the declaration of a field. -/
def FieldDecl.created (f : FieldDecl) : List String :=
  (f.initializer.map Expr.created).getD []

def Method.created (m : Method) : List String :=
  createdAll m.body

/-- The types that a method is written with: of its result, its parameters and its locals. -/
def Method.types (m : Method) : List String :=
  m.returnType.toList ++ m.params.map Param.type ++ localTypesAll m.body

/-- A block creates objects of some types only, and declares locals of some types only. -/
structure Uses (news types : List String) (ss : List Stmt) : Prop where
  created : createdAll ss ⊆ news
  locals : localTypesAll ss ⊆ types

section Blocks

variable {news types : List String} {s : Stmt} {ss ts : List Stmt}

theorem localTypesAll_append (ss ts : List Stmt) :
    localTypesAll (ss ++ ts) = localTypesAll ss ++ localTypesAll ts := by
  induction ss with
  | nil => rfl
  | cons s ss ih => rw [List.cons_append,localTypesAll,localTypesAll,ih,List.append_assoc]

theorem filterMap_exprsAll (ss : List Stmt) :
    (exprsAll ss).filterMap Expr.created? = createdAll ss := by
  induction ss with
  | nil => rfl
  | cons s ss ih =>
    rw [exprsAll,List.filterMap_append,ih]
    rfl

/-- Nothing is created and nothing declared. -/
theorem Uses.of_nil (hcreated : createdAll ss = []) (hlocals : localTypesAll ss = []) :
    Uses news types ss :=
  ⟨hcreated ▸ List.nil_subset _,hlocals ▸ List.nil_subset _⟩

theorem uses_nil : Uses news types [] :=
  .of_nil rfl rfl

theorem Uses.append (hss : Uses news types ss) (hts : Uses news types ts) :
    Uses news types (ss ++ ts) where
  created := by
    rw [createdAll,List.flatMap_append]
    exact List.append_subset.mpr ⟨hss.created,hts.created⟩
  locals := by
    rw [localTypesAll_append]
    exact List.append_subset.mpr ⟨hss.locals,hts.locals⟩

theorem Uses.cons (hs : Uses news types [s]) (hss : Uses news types ss) :
    Uses news types (s :: ss) :=
  hs.append hss

theorem Uses.optional {p : Prop} [Decidable p] (h : Uses news types ss) :
    Uses news types (if p then ss else []) := by
  split
  · exact h
  · exact uses_nil

theorem uses_flatMap {α : Type} {as : List α} {block : α → List Stmt}
    (h : ∀ a ∈ as, Uses news types (block a)) : Uses news types (as.flatMap block) := by
  induction as with
  | nil => exact uses_nil
  | cons a as ih =>
    obtain ⟨ha,has⟩ := List.forall_mem_cons.mp h
    exact ha.append (ih has)

theorem Uses.forEach {type name : String} {e : Expr} (hiterable : e.created ⊆ news)
    (htype : type ∈ types) (hbody : Uses news types ss) :
    Uses news types [.forEach type name e ss] where
  created := by
    have hcreated : createdAll [.forEach type name e ss] = e.created ++ createdAll ss := by
      rw [createdAll,List.flatMap_singleton,Stmt.created,Stmt.exprs,List.filterMap_append,
        filterMap_exprsAll]
      rfl
    rw [hcreated]
    exact List.append_subset.mpr ⟨hiterable,hbody.created⟩
  locals := by
    rw [localTypesAll,Stmt.localTypes,localTypesAll,List.append_nil]
    exact List.cons_subset.mpr ⟨htype,hbody.locals⟩

end Blocks

end Java

namespace Link

/-- The types of the objects that members of a field create. -/
def newTypes (l : Link) : List String :=
  if l.kind.isCollectionValued then [l.collectionKind.implementation ++ "<>","ArrayList<>"] else []

/-- The types that members of a field are written with: its own class only where there is an
inverse side, and collections only where it holds many. -/
def memberTypes (l : Link) : List String :=
  ["boolean","int",l.targetType] ++ (if l.inverse.isSome then [l.sourceType] else []) ++
    (if l.kind.isCollectionValued then [l.collectionType,"List<" ++ l.targetType ++ ">"] else [])

/-- A member keeps to the types of its field. -/
structure Typed (l : Link) (m : Method) : Prop where
  body : Uses l.newTypes l.memberTypes m.body
  signature : m.returnType.toList ++ m.params.map Param.type ⊆ l.memberTypes

variable {l : Link}

theorem Typed.types {m : Method} (h : l.Typed m) : m.types ⊆ l.memberTypes :=
  List.append_subset.mpr ⟨h.signature,h.body.locals⟩

/-- The types that every member may be written with. -/
theorem common_subset : ["boolean","int",l.targetType] ⊆ l.memberTypes :=
  List.subset_append_of_subset_left _ (List.subset_append_left _ _)

theorem target_mem : l.targetType ∈ l.memberTypes :=
  common_subset (List.mem_of_getLast? rfl)

theorem source_mem {i : Inverse} (h : l.inverse = some i) : l.sourceType ∈ l.memberTypes := by
  simp [memberTypes,h]

theorem many_subset (h : l.kind.isCollectionValued = true) :
    [l.collectionType,"List<" ++ l.targetType ++ ">"] ⊆ l.memberTypes := by
  rw [memberTypes,if_pos h]
  exact List.subset_append_right _ _

theorem new_subset (h : l.kind.isCollectionValued = true) :
    [l.collectionKind.implementation ++ "<>","ArrayList<>"] ⊆ l.newTypes := by
  rw [newTypes,if_pos h]
  exact List.Subset.refl _

section Blocks

variable {news types : List String}

theorem uses_unlinkElement (i : Inverse) : Uses news types [l.unlinkElement i] := by
  unfold unlinkElement
  split
  · exact .of_nil rfl rfl
  · exact .of_nil rfl rfl

/-- What follows a removal creates nothing and declares nothing. -/
theorem uses_afterRemoval : Uses news types l.afterRemoval := by
  refine .append ?_ (.optional (.of_nil rfl rfl))
  cases l.inverse with
  | none => exact uses_nil
  | some i => exact uses_unlinkElement i

/-- Linking an element may look at its previous owner. -/
theorem uses_linkElement (i : Inverse) (hsource : l.sourceType ∈ types) :
    Uses news types (l.linkElement i) := by
  unfold linkElement
  split
  · exact .of_nil rfl rfl
  · exact ⟨List.nil_subset _,List.cons_subset.mpr ⟨hsource,List.nil_subset _⟩⟩

/-- A one-to-one setter looks at the object that it displaces. -/
theorem uses_releaseDisplaced (i : Inverse) (hsource : l.sourceType ∈ types) :
    Uses news types [l.releaseDisplaced i] :=
  ⟨List.nil_subset _,List.cons_subset.mpr ⟨hsource,List.nil_subset _⟩⟩

/-- What lets the previous value go. -/
theorem uses_detach (i : Inverse) (owner : String) : Uses news types
    [.when (.notNull (.var owner)) [.eval (detach i (.var owner))]] := by
  unfold detach
  split
  · exact .of_nil rfl rfl
  · exact .of_nil rfl rfl

theorem uses_attach (i : Inverse) : Uses news types [l.attach i] := by
  simp only [attach]
  split
  · exact .of_nil rfl rfl
  · exact .of_nil rfl rfl

/-- A setter that keeps the inverse side in step declares the value that the field held, and a
displaced object. -/
theorem uses_singleSetterBody : Uses news l.memberTypes l.singleSetterBody := by
  have hkeep : Uses news l.memberTypes
      [.declare l.targetType (previousLocal l.field) (.thisField l.field)] :=
    ⟨List.nil_subset _,List.cons_subset.mpr ⟨target_mem,List.nil_subset _⟩⟩
  refine .cons (.of_nil rfl rfl) (.append (.append (.append (.append (.optional hkeep) ?_)
    (.of_nil rfl rfl)) ?_) (.optional (.of_nil rfl rfl)))
  · cases hi : l.inverse with
    | none => exact uses_nil
    | some i =>
      exact .cons (uses_detach i _) (.optional (uses_releaseDisplaced i (source_mem hi)))
  · cases l.inverse with
    | none => exact uses_nil
    | some i => exact uses_attach i

end Blocks

section Members

/-- A member that creates nothing and declares nothing. -/
theorem Typed.of_nil {m : Method} (hcreated : createdAll m.body = [])
    (hlocals : localTypesAll m.body = [])
    (h : m.returnType.toList ++ m.params.map Param.type ⊆ ["boolean","int",l.targetType]) :
    l.Typed m :=
  ⟨.of_nil hcreated hlocals,List.Subset.trans h common_subset⟩

theorem typed_manyGetter (h : l.kind.isCollectionValued = true) : l.Typed l.manyGetter where
  body := ⟨List.Subset.trans (List.subset_append_left [_] [_]) (new_subset h),List.nil_subset _⟩
  signature := List.Subset.trans (List.subset_append_left [_] [_]) (many_subset h)

theorem typed_manySetter (h : l.kind.isCollectionValued = true) : l.Typed l.manySetter where
  body := ⟨List.Subset.trans (List.subset_append_right [_] [_]) (new_subset h),
    List.cons_subset.mpr ⟨target_mem,List.nil_subset _⟩⟩
  signature := List.Subset.trans (List.subset_append_left [_] [_]) (many_subset h)

theorem typed_adder : l.Typed l.adder where
  body := by
    refine .append (.append (.of_nil rfl rfl) ?_) (.of_nil rfl rfl)
    cases hi : l.inverse with
    | none => exact uses_nil
    | some i => exact uses_linkElement i (source_mem hi)
  signature := List.Subset.trans (by simp [adder]) common_subset

theorem typed_remover : l.Typed l.remover where
  body := .append (.append (.of_nil rfl rfl) uses_afterRemoval) (.of_nil rfl rfl)
  signature := List.Subset.trans (by simp [remover]) common_subset

/-- A copy is made only where something follows a removal. -/
theorem typed_clearer (h : l.kind.isCollectionValued = true) : l.Typed l.clearer where
  body := by
    simp only [clearer]
    split
    · exact .of_nil rfl rfl
    · refine .cons ⟨?_,?_⟩ (.cons (.of_nil rfl rfl) (.forEach (List.nil_subset _) target_mem
        uses_afterRemoval))
      · exact List.Subset.trans (List.subset_append_right [_] [_]) (new_subset h)
      · exact List.Subset.trans (List.subset_append_right [_] [_]) (many_subset h)
  signature := List.nil_subset _

theorem typed_orphanHook (param : String) : l.Typed (l.orphanHook param) :=
  .of_nil rfl rfl (by simp [orphanHook])

theorem typed_collectionAccessors (h : l.kind.isCollectionValued = true) :
    ∀ m ∈ l.collectionAccessors, l.Typed m := by
  simp only [collectionAccessors,List.forall_mem_cons]
  exact ⟨typed_manyGetter h,typed_manySetter h,typed_adder,typed_remover,typed_clearer h,
    List.forall_mem_nil _⟩

theorem typed_manyAccessors (h : l.kind.isCollectionValued = true) :
    ∀ m ∈ l.manyAccessors, l.Typed m := by
  have hsetter : l.Typed l.manyInternalSetter :=
    ⟨.of_nil rfl rfl,List.Subset.trans (List.subset_append_left [_] [_]) (many_subset h)⟩
  simp only [manyAccessors,List.forall_mem_append]
  refine ⟨⟨typed_collectionAccessors h,forall_mem_ite_nil (fun _ => ?_)⟩,
    forall_mem_ite_nil (fun _ => List.forall_mem_singleton.mpr (typed_orphanHook _))⟩
  simp only [List.forall_mem_cons]
  exact ⟨.of_nil rfl rfl (by simp [internalAdder]),.of_nil rfl rfl (by simp [internalRemover]),
    hsetter,List.forall_mem_nil _⟩

theorem typed_singleAccessors : ∀ m ∈ l.singleAccessors, l.Typed m := by
  have hsetter : l.Typed l.singleSetter :=
    ⟨uses_singleSetterBody,List.Subset.trans (by simp [singleSetter]) common_subset⟩
  simp only [singleAccessors,List.forall_mem_append,List.forall_mem_cons]
  exact ⟨⟨⟨.of_nil rfl rfl (by simp [singleGetter]),hsetter,List.forall_mem_nil _⟩,
    forall_mem_ite_nil (fun _ => List.forall_mem_singleton.mpr
      (.of_nil rfl rfl (by simp [singleInternalSetter])))⟩,
    forall_mem_ite_nil (fun _ => List.forall_mem_singleton.mpr (typed_orphanHook _))⟩

/-- Every accessor keeps to the types of its field. -/
theorem typed_accessors : ∀ m ∈ l.accessors l.relationship.style, l.Typed m := by
  rcases l.accessors_cases with ⟨hmany,h | ⟨-,h⟩⟩ | ⟨-,h | ⟨-,h⟩⟩
  · rw [h]
    exact typed_manyAccessors hmany
  · rw [h]
    exact typed_collectionAccessors hmany
  · rw [h]
    exact typed_singleAccessors
  · rw [h]
    simp only [List.forall_mem_cons]
    exact ⟨.of_nil rfl rfl (by simp [singleGetter]),.of_nil rfl rfl (by simp [plainSetter]),
      List.forall_mem_nil _⟩

theorem typed_helpers : ∀ m ∈ l.helpers, l.Typed m := by
  unfold helpers
  split
  · simp only [List.forall_mem_cons]
    exact ⟨.of_nil rfl rfl (by simp [counter]),.of_nil rfl rfl (by simp [elementPredicate]),
      List.forall_mem_nil _⟩
  · exact List.forall_mem_singleton.mpr (.of_nil rfl rfl (by simp [presencePredicate]))

end Members

end Link

namespace Validators

variable {s : Settings} {a : Analysis} {rs : List Relationship} {r : Relationship}

/-- The types that validators are written with: that of their verdict, and the targets of what they
check. -/
def checkTypes (rs : List Relationship) : List String :=
  "boolean" :: rs.map Relationship.targetSimple

/-- A validator creates nothing, and it is written with the targets of what it checks. -/
structure Typed (rs : List Relationship) (m : Method) : Prop where
  body : Uses [] (checkTypes rs) m.body
  signature : m.returnType.toList ++ m.params.map Param.type ⊆ checkTypes rs

theorem Typed.types {m : Method} (h : Typed rs m) : m.types ⊆ checkTypes rs :=
  List.append_subset.mpr ⟨h.signature,h.body.locals⟩

theorem target_mem_checkTypes (h : r ∈ rs) : r.targetSimple ∈ checkTypes rs :=
  List.mem_cons_of_mem _ (List.mem_map_of_mem h)

/-- A check of every element of a collection declares the element, one of a single value
nothing. -/
theorem uses_inverseChecks (h : r ∈ rs) : Uses [] (checkTypes rs) (inverseChecks a r) := by
  have hlocals : [r.targetSimple] ⊆ checkTypes rs :=
    List.cons_subset.mpr ⟨target_mem_checkTypes h,List.nil_subset _⟩
  unfold inverseChecks
  split
  · exact uses_nil
  · unfold perValue missesBack
    split
    · split
      · exact ⟨List.nil_subset _,hlocals⟩
      · exact ⟨List.nil_subset _,hlocals⟩
    · split
      · exact .of_nil rfl rfl
      · exact .of_nil rfl rfl

theorem uses_guardChecks (h : r ∈ rs) : Uses [] (checkTypes rs) (guardChecks r) := by
  unfold guardChecks
  split
  · unfold perValue
    split
    · exact ⟨List.nil_subset _,
        List.cons_subset.mpr ⟨target_mem_checkTypes h,List.nil_subset _⟩⟩
    · exact .of_nil rfl rfl
  · exact uses_nil

theorem typed_aggregate {name doc : String} {checks : List Stmt}
    (h : Uses [] (checkTypes rs) checks) : Typed rs (aggregate name doc checks) where
  body := .append (.append ⟨List.nil_subset _,List.cons_subset.mpr
    ⟨List.mem_cons_self,List.nil_subset _⟩⟩ h) (.of_nil rfl rfl)
  signature := List.cons_subset.mpr ⟨List.mem_cons_self,List.nil_subset _⟩

theorem typed_validateRelationships : Typed rs (validateRelationships a rs) := by
  rw [validateRelationships]
  split
  · exact typed_aggregate (.of_nil rfl rfl)
  · exact typed_aggregate (uses_flatMap (fun r hr => uses_inverseChecks hr))

theorem typed_validateCircular : Typed rs (validateCircular s rs) :=
  typed_aggregate (uses_flatMap (fun _ hr => uses_guardChecks hr))

theorem typed_validateCascades : Typed rs (validateCascades a rs) where
  body := by
    refine .append ?_ (.of_nil rfl rfl)
    rw [List.map_eq_flatMap]
    exact uses_flatMap (fun _ _ => .of_nil rfl rfl)
  signature := List.cons_subset.mpr ⟨List.mem_cons_self,List.nil_subset _⟩

/-- The validators of an entity keep to the targets of its links. -/
theorem typed_methodsOf {entity : String} :
    ∀ m ∈ methodsOf s a entity, Typed (checked a entity) m := by
  simp only [methodsOf,List.forall_mem_append,List.forall_mem_singleton]
  exact ⟨⟨typed_validateRelationships,forall_mem_ite_nil (fun _ =>
    List.forall_mem_singleton.mpr typed_validateCircular)⟩,typed_validateCascades⟩

end Validators

end EntityLink
