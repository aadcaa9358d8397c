import EntityLink.Java.Tree

namespace EntityLink.Java

mutual

/-- The locals and loop variables that a statement declares, within other statements too. -/
def Stmt.declared : Stmt → List String
  | .ifElse _ t f => declaredAll t ++ declaredAll f
  | .declare _ n _ => [n]
  | .forEach _ n _ body => n :: declaredAll body
  | .ret _ | .assign .. | .eval _ | .comment _ => []

def declaredAll : List Stmt → List String
  | [] => []
  | s :: ss => s.declared ++ declaredAll ss

end

/-- No local or loop variable is called like a parameter. -/
def Method.Unshadowed (m : Method) : Prop :=
  ∀ q ∈ m.params, q.name ∉ declaredAll m.body

instance (m : Method) : Decidable m.Unshadowed :=
  inferInstanceAs (Decidable (∀ q ∈ m.params, q.name ∉ declaredAll m.body))

theorem declaredAll_append (ss ts : List Stmt) :
    declaredAll (ss ++ ts) = declaredAll ss ++ declaredAll ts := by
  induction ss with
  | nil => rfl
  | cons s ss ih => rw [List.cons_append,declaredAll,declaredAll,ih,List.append_assoc]

theorem Stmt.declared_when (c : Expr) (body : List Stmt) :
    (Stmt.when c body).declared = declaredAll body := by
  rw [Stmt.when,Stmt.declared,declaredAll,List.append_nil]

/-- The local that a statement brings into scope for what stands behind it. -/
def Stmt.binds : Stmt → List String
  | .declare _ n _ => [n]
  | .ifElse .. | .ret _ | .assign .. | .eval _ | .forEach .. | .comment _ => []

mutual

/-- The names that come into scope together along each path into a statement. -/
def Stmt.scopes : Stmt → List (List String)
  | .ifElse _ t f => scopesAll t ++ scopesAll f
  | .forEach _ n _ body => (scopesAll body).map (n :: ·)
  | .ret _ | .assign .. | .declare .. | .eval _ | .comment _ => []

/-- A path leads into one of the statements, where what was declared before it is in scope, or to
the end of the block. -/
def scopesAll : List Stmt → List (List String)
  | [] => [[]]
  | s :: ss => s.scopes ++ (scopesAll ss).map (s.binds ++ ·)

end

/-- With the names of `outer` in scope, no two names in scope together are the same. -/
def ScopedAll (outer : List String) (ss : List Stmt) : Prop :=
  ∀ names ∈ scopesAll ss, (outer ++ names).Nodup

/-- No local or loop variable takes a name that is in scope where it is declared, and no two
parameters have one name. -/
def Method.WellScoped (m : Method) : Prop :=
  ScopedAll (m.params.map Param.name) m.body

instance (m : Method) : Decidable m.WellScoped :=
  inferInstanceAs (Decidable (∀ names ∈ scopesAll m.body,
    (m.params.map Param.name ++ names).Nodup))

section Scopes

variable {outer : List String} {ss ts : List Stmt}

@[simp]
theorem scopedAll_nil : ScopedAll outer [] ↔ outer.Nodup := by
  simp [ScopedAll,scopesAll]

theorem scopedAll_cons (s : Stmt) : ScopedAll outer (s :: ss) ↔
    (∀ names ∈ s.scopes, (outer ++ names).Nodup) ∧ ScopedAll (outer ++ s.binds) ss := by
  simp only [ScopedAll,scopesAll,List.forall_mem_append,List.forall_mem_map,List.append_assoc]

/-- The end of a block can be reached. -/
theorem exists_mem_scopesAll (ss : List Stmt) : ∃ names, names ∈ scopesAll ss := by
  induction ss with
  | nil => exact ⟨[],List.mem_singleton_self _⟩
  | cons s ss ih =>
    obtain ⟨names,hnames⟩ := ih
    exact ⟨_,List.mem_append_right _ (List.mem_map_of_mem hnames)⟩

/-- What is in scope at the start of a block is in scope on every path through it. -/
theorem ScopedAll.nodup (h : ScopedAll outer ss) : outer.Nodup := by
  induction ss generalizing outer with
  | nil => exact scopedAll_nil.mp h
  | cons s ss ih => exact (ih ((scopedAll_cons s).mp h).2).sublist (List.sublist_append_left _ _)

/-- A statement without statements in it gives what stands behind it the local it declares. -/
theorem scopedAll_leaf {s : Stmt} (hscopes : s.scopes = []) :
    ScopedAll outer (s :: ss) ↔ ScopedAll (outer ++ s.binds) ss := by
  rw [scopedAll_cons,hscopes]
  exact and_iff_right fun _ hnames => absurd hnames List.not_mem_nil

theorem scopedAll_plain {s : Stmt} (hscopes : s.scopes = []) (hbinds : s.binds = []) :
    ScopedAll outer (s :: ss) ↔ ScopedAll outer ss := by
  rw [scopedAll_leaf hscopes,hbinds,List.append_nil]

@[simp]
theorem scopedAll_declare (type name : String) (value : Expr) :
    ScopedAll outer (.declare type name value :: ss) ↔ ScopedAll (outer ++ [name]) ss :=
  scopedAll_leaf rfl

@[simp]
theorem scopedAll_when (c : Expr) (body : List Stmt) :
    ScopedAll outer (.when c body :: ss) ↔ ScopedAll outer body ∧ ScopedAll outer ss := by
  simp only [scopedAll_cons,Stmt.when,Stmt.scopes,Stmt.binds,scopesAll,List.append_nil,
    List.forall_mem_append,List.forall_mem_singleton]
  exact ⟨fun h => ⟨h.1.1,h.2⟩,fun h => ⟨⟨h.1,h.2.nodup⟩,h.2⟩⟩

@[simp]
theorem scopedAll_forEach (type name : String) (e : Expr) (body : List Stmt) :
    ScopedAll outer (.forEach type name e body :: ss) ↔
      ScopedAll (outer ++ [name]) body ∧ ScopedAll outer ss := by
  rw [scopedAll_cons,Stmt.binds,List.append_nil,Stmt.scopes,List.forall_mem_map]
  simp only [ScopedAll,List.append_assoc,List.singleton_append]

@[simp]
theorem scopedAll_ret (value : Option Expr) :
    ScopedAll outer (.ret value :: ss) ↔ ScopedAll outer ss :=
  scopedAll_plain rfl rfl

@[simp]
theorem scopedAll_assign (target value : Expr) :
    ScopedAll outer (.assign target value :: ss) ↔ ScopedAll outer ss :=
  scopedAll_plain rfl rfl

@[simp]
theorem scopedAll_eval (e : Expr) :
    ScopedAll outer (.eval e :: ss) ↔ ScopedAll outer ss :=
  scopedAll_plain rfl rfl

@[simp]
theorem scopedAll_comment (text : String) :
    ScopedAll outer (.comment text :: ss) ↔ ScopedAll outer ss :=
  scopedAll_plain rfl rfl

theorem scopedAll_append : ScopedAll outer (ss ++ ts) ↔
    ScopedAll outer ss ∧ ScopedAll (outer ++ ss.flatMap Stmt.binds) ts := by
  induction ss generalizing outer with
  | nil => simpa using ScopedAll.nodup
  | cons s ss ih =>
    rw [List.cons_append,scopedAll_cons,scopedAll_cons,ih,List.flatMap_cons,List.append_assoc,
      and_assoc]

/-- A return at the end of a block declares nothing. -/
theorem scopedAll_append_ret (value : Option Expr) :
    ScopedAll outer (ss ++ [.ret value]) ↔ ScopedAll outer ss := by
  induction ss generalizing outer with
  | nil => exact scopedAll_ret value
  | cons s ss ih => rw [List.cons_append,scopedAll_cons,scopedAll_cons,ih]

/-- Blocks that leave nothing in scope are looked at one by one. -/
theorem scopedAll_flatMap {α : Type} {l : List α} {block : α → List Stmt}
    (h : ∀ a ∈ l, (block a).flatMap Stmt.binds = []) :
    ScopedAll outer (l.flatMap block) ↔ outer.Nodup ∧ ∀ a ∈ l, ScopedAll outer (block a) := by
  induction l with
  | nil => simp
  | cons a l ih =>
    obtain ⟨ha,hl⟩ := List.forall_mem_cons.mp h
    rw [List.flatMap_cons,scopedAll_append,ha,List.append_nil,ih hl,List.forall_mem_cons]
    exact and_left_comm

end Scopes

mutual

theorem Stmt.mem_scopes_of_declared {n : String} (s : Stmt) (h : n ∈ s.declared) :
    n ∈ s.binds ∨ ∃ names ∈ s.scopes, n ∈ names := by
  cases s with
  | declare type name value => exact .inl h
  | ret | assign | eval | comment => cases h
  | ifElse c t f =>
    rw [Stmt.declared,List.mem_append] at h
    refine .inr ?_
    rcases h with h | h
    · obtain ⟨names,hnames,hn⟩ := mem_scopesAll_of_declared t h
      exact ⟨names,List.mem_append_left _ hnames,hn⟩
    · obtain ⟨names,hnames,hn⟩ := mem_scopesAll_of_declared f h
      exact ⟨names,List.mem_append_right _ hnames,hn⟩
  | forEach type name e body =>
    refine .inr ?_
    rcases List.mem_cons.mp h with rfl | h
    · obtain ⟨names,hnames⟩ := exists_mem_scopesAll body
      exact ⟨n :: names,List.mem_map_of_mem hnames,List.mem_cons_self⟩
    · obtain ⟨names,hnames,hn⟩ := mem_scopesAll_of_declared body h
      exact ⟨name :: names,List.mem_map_of_mem hnames,List.mem_cons_of_mem _ hn⟩

/-- What is declared anywhere in a block is in scope on some path. -/
theorem mem_scopesAll_of_declared {n : String} (ss : List Stmt) (h : n ∈ declaredAll ss) :
    ∃ names ∈ scopesAll ss, n ∈ names := by
  cases ss with
  | nil => cases h
  | cons s ss =>
    have hscopes : ∀ names ∈ scopesAll ss, s.binds ++ names ∈ scopesAll (s :: ss) :=
      fun names hnames => List.mem_append_right _ (List.mem_map_of_mem hnames)
    rw [declaredAll,List.mem_append] at h
    rcases h with h | h
    · rcases s.mem_scopes_of_declared h with hn | ⟨names,hnames,hn⟩
      · obtain ⟨names,hnames⟩ := exists_mem_scopesAll ss
        exact ⟨_,hscopes names hnames,List.mem_append_left _ hn⟩
      · exact ⟨names,List.mem_append_left _ hnames,hn⟩
    · obtain ⟨names,hnames,hn⟩ := mem_scopesAll_of_declared ss h
      exact ⟨_,hscopes names hnames,List.mem_append_right _ hn⟩

end

/-- Where names are well scoped, no parameter is hidden. -/
theorem Method.WellScoped.unshadowed {m : Method} (h : m.WellScoped) : m.Unshadowed := by
  intro q hq hdeclared
  obtain ⟨names,hnames,hn⟩ := mem_scopesAll_of_declared m.body hdeclared
  exact (List.nodup_append.mp (h names hnames)).2.2 q.name (List.mem_map_of_mem hq) q.name hn rfl

end EntityLink.Java
