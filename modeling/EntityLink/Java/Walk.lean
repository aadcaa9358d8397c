import EntityLink.Java.Tree

namespace EntityLink.Java

mutual

/-- An expression and all within it, each before its own parts. -/
def Expr.subexprs : Expr → List Expr
  | .this => [.this]
  | .null => [.null]
  | .bool b => [.bool b]
  | .var n => [.var n]
  | .field e n => .field e n :: e.subexprs
  | .call e m as => .call e m as :: (e.subexprs ++ subexprsAll as)
  | .callBare m as => .callBare m as :: subexprsAll as
  | .create t as => .create t as :: subexprsAll as
  | .same a b => .same a b :: (a.subexprs ++ b.subexprs)
  | .notSame a b => .notSame a b :: (a.subexprs ++ b.subexprs)
  | .not e => .not e :: e.subexprs
  | .and es => .and es :: subexprsAll es
  | .or es => .or es :: subexprsAll es
  | .instanceOf e t => .instanceOf e t :: e.subexprs

def subexprsAll : List Expr → List Expr
  | [] => []
  | e :: es => e.subexprs ++ subexprsAll es

end

mutual

/-- Every expression in a statement and the statements within it, in the order of the text. -/
def Stmt.exprs : Stmt → List Expr
  | .ifElse c t f => c.subexprs ++ (exprsAll t ++ exprsAll f)
  | .ret none => []
  | .ret (some e) => e.subexprs
  | .assign t v => t.subexprs ++ v.subexprs
  | .declare _ _ v => v.subexprs
  | .eval e => e.subexprs
  | .forEach _ _ e body => e.subexprs ++ exprsAll body
  | .comment _ => []

def exprsAll : List Stmt → List Expr
  | [] => []
  | s :: ss => s.exprs ++ exprsAll ss

end

end EntityLink.Java
