import EntityLink.Java.Walk
import EntityLink.RecursionCheck

namespace EntityLink.Java

def Expr.isCall : Expr → Bool
  | .call .. | .callBare .. => true
  | _ => false

namespace Expr

/-- Every call in an expression, nested ones included. -/
def calls (e : Expr) : List Expr :=
  e.subexprs.filter isCall

/-- Every call in a list of operands or arguments. -/
def callsIn (es : List Expr) : List Expr :=
  (subexprsAll es).filter isCall

@[simp]
theorem callsIn_nil : callsIn [] = [] :=
  rfl

@[simp]
theorem callsIn_cons (e : Expr) (es : List Expr) : callsIn (e :: es) = e.calls ++ callsIn es := by
  rw [callsIn,subexprsAll,List.filter_append]
  rfl

@[simp]
theorem calls_this : this.calls = [] :=
  rfl

@[simp]
theorem calls_null : null.calls = [] :=
  rfl

@[simp]
theorem calls_bool (b : Bool) : (bool b).calls = [] :=
  rfl

@[simp]
theorem calls_var (n : String) : (var n).calls = [] :=
  rfl

@[simp]
theorem calls_field (e : Expr) (n : String) : (field e n).calls = e.calls :=
  rfl

@[simp]
theorem calls_call (e : Expr) (m : String) (as : List Expr) :
    (call e m as).calls = call e m as :: (e.calls ++ callsIn as) := by
  rw [calls,subexprs,List.filter_cons_of_pos rfl,List.filter_append]
  rfl

@[simp]
theorem calls_create (t : String) (as : List Expr) : (create t as).calls = callsIn as :=
  rfl

@[simp]
theorem calls_same (a b : Expr) : (same a b).calls = a.calls ++ b.calls := by
  rw [calls,subexprs,List.filter_cons_of_neg Bool.false_ne_true,List.filter_append]
  rfl

@[simp]
theorem calls_notSame (a b : Expr) : (notSame a b).calls = a.calls ++ b.calls := by
  rw [calls,subexprs,List.filter_cons_of_neg Bool.false_ne_true,List.filter_append]
  rfl

@[simp]
theorem calls_not (e : Expr) : (not e).calls = e.calls :=
  rfl

@[simp]
theorem calls_and (es : List Expr) : (and es).calls = callsIn es :=
  rfl

@[simp]
theorem calls_or (es : List Expr) : (or es).calls = callsIn es :=
  rfl

@[simp]
theorem calls_instanceOf (e : Expr) (t : String) : (instanceOf e t).calls = e.calls :=
  rfl

end Expr

def Stmt.calls (s : Stmt) : List Expr :=
  s.exprs.filter Expr.isCall

/-- Every call in some statements. -/
def callsAll (ss : List Stmt) : List Expr :=
  (exprsAll ss).filter Expr.isCall

@[simp]
theorem callsAll_nil : callsAll [] = [] :=
  rfl

@[simp]
theorem callsAll_cons (s : Stmt) (ss : List Stmt) :
    callsAll (s :: ss) = s.calls ++ callsAll ss := by
  rw [callsAll,exprsAll,List.filter_append]
  rfl

@[simp]
theorem callsAll_append (ss ts : List Stmt) : callsAll (ss ++ ts) = callsAll ss ++ callsAll ts := by
  induction ss with
  | nil => rfl
  | cons s ss ih => rw [List.cons_append,callsAll_cons,callsAll_cons,ih,List.append_assoc]

theorem callsAll_flatMap {α : Type} (f : α → List Stmt) (xs : List α) :
    callsAll (xs.flatMap f) = xs.flatMap (fun x => callsAll (f x)) := by
  induction xs with
  | nil => rfl
  | cons x xs ih => rw [List.flatMap_cons,callsAll_append,ih,List.flatMap_cons]

namespace Stmt

@[simp]
theorem calls_when (c : Expr) (body : List Stmt) :
    (when c body).calls = c.calls ++ callsAll body := by
  rw [when,calls,exprs,exprsAll,List.append_nil,List.filter_append]
  rfl

@[simp]
theorem calls_forEach (type name : String) (e : Expr) (body : List Stmt) :
    (forEach type name e body).calls = e.calls ++ callsAll body := by
  rw [calls,exprs,List.filter_append]
  rfl

@[simp]
theorem calls_eval (e : Expr) : (eval e).calls = e.calls :=
  rfl

@[simp]
theorem calls_declare (type name : String) (e : Expr) : (declare type name e).calls = e.calls :=
  rfl

@[simp]
theorem calls_assign (target value : Expr) :
    (assign target value).calls = target.calls ++ value.calls := by
  rw [calls,exprs,List.filter_append]
  rfl

@[simp]
theorem calls_ret (e : Expr) : (ret (some e)).calls = e.calls :=
  rfl

@[simp]
theorem calls_ret_none : (ret none).calls = [] :=
  rfl

@[simp]
theorem calls_comment (text : String) : (comment text).calls = [] :=
  rfl

end Stmt

theorem Expr.foreignCallee?_eq_some {e : Expr} {n : String} : e.foreignCallee? = some n ↔
    ∃ receiver arguments, e = .call receiver n arguments ∧ receiver ≠ .this := by
  constructor
  · intro h
    unfold foreignCallee? at h
    split at h
    · cases h
    · rename_i receiver name arguments hthis
      cases h
      exact ⟨receiver,arguments,rfl,hthis⟩
    · cases h
  · rintro ⟨receiver,arguments,rfl,hthis⟩
    cases receiver with
    | this => exact absurd rfl hthis
    | _ => rfl

/-- The callees of a method on other objects are those of its calls whose receiver is not
`this`. -/
theorem mem_foreignCallees {m : Method} {n : String} :
    n ∈ RecursionCheck.foreignCallees m ↔
      ∃ receiver arguments, .call receiver n arguments ∈ callsAll m.body ∧ receiver ≠ .this := by
  simp only [RecursionCheck.foreignCallees,callsAll,List.mem_filterMap,List.mem_filter,
    Expr.foreignCallee?_eq_some]
  constructor
  · rintro ⟨_,he,receiver,arguments,rfl,hthis⟩
    exact ⟨receiver,arguments,⟨he,rfl⟩,hthis⟩
  · rintro ⟨receiver,arguments,⟨he,-⟩,hthis⟩
    exact ⟨_,he,receiver,arguments,rfl,hthis⟩

end EntityLink.Java
