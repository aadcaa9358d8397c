import EntityLink.Java.Tree
import EntityLink.Text.Lines

namespace EntityLink.Java
open Text

/-- How tightly the outermost operator of an expression binds. -/
def Expr.level : Expr → Nat
  | .or _ => 3
  | .and _ => 4
  | .same .. => 9
  | .notSame .. => 9
  | .instanceOf .. => 10
  | .not _ => 14
  | _ => 16

/-- The text of an operand, in parentheses where it binds less than its place asks for. -/
def Expr.asOperand (least : Nat) (e : Expr) (text : String) : String :=
  if e.level < least then "(" ++ text ++ ")" else text

mutual

def Expr.render : Expr → String
  | .this => "this"
  | .null => "null"
  | .bool b => if b then "true" else "false"
  | .var n => n
  | .field e n => e.asOperand 16 e.render ++ "." ++ n
  | .call e m as => e.asOperand 16 e.render ++ "." ++ m ++ "(" ++ join ", " (renderAll as) ++ ")"
  | .callBare m as => m ++ "(" ++ join ", " (renderAll as) ++ ")"
  | .create t as => "new " ++ t ++ "(" ++ join ", " (renderAll as) ++ ")"
  | .same a b => a.asOperand 10 a.render ++ " == " ++ b.asOperand 10 b.render
  | .notSame a b => a.asOperand 10 a.render ++ " != " ++ b.asOperand 10 b.render
  | .not e => "!" ++ e.asOperand 14 e.render
  | .and es => join " && " (renderOperands 5 es)
  | .or es => join " || " (renderOperands 4 es)
  | .instanceOf e t => e.asOperand 11 e.render ++ " instanceof " ++ t

def renderAll : List Expr → List String
  | [] => []
  | e :: es => e.render :: renderAll es

def renderOperands (least : Nat) : List Expr → List String
  | [] => []
  | e :: es => e.asOperand least e.render :: renderOperands least es

end

/-- Margins of one indentation width. -/
def margin (width depth : Nat) : String :=
  spaces (width * depth)

mutual

/-- The lines of a statement at some depth, each with its line break. -/
def Stmt.render (width depth : Nat) : Stmt → String
  | .ifElse c t [] =>
    margin width depth ++ "if (" ++ c.render ++ ") \x7b\n" ++ renderBlock width (depth + 1) t ++
      margin width depth ++ "\x7d\n"
  | .ifElse c t (f :: fs) =>
    margin width depth ++ "if (" ++ c.render ++ ") \x7b\n" ++ renderBlock width (depth + 1) t ++
      margin width depth ++ "\x7d else \x7b\n" ++ renderBlock width (depth + 1) (f :: fs) ++
      margin width depth ++ "\x7d\n"
  | .ret none => margin width depth ++ "return;\n"
  | .ret (some e) => margin width depth ++ "return " ++ e.render ++ ";\n"
  | .assign t v => margin width depth ++ t.render ++ " = " ++ v.render ++ ";\n"
  | .declare t n v => margin width depth ++ t ++ " " ++ n ++ " = " ++ v.render ++ ";\n"
  | .eval e => margin width depth ++ e.render ++ ";\n"
  | .forEach t n e body =>
    margin width depth ++ "for (" ++ t ++ " " ++ n ++ " : " ++ e.render ++ ") \x7b\n" ++
      renderBlock width (depth + 1) body ++ margin width depth ++ "\x7d\n"
  | .comment s => margin width depth ++ "// " ++ s ++ "\n"

def renderBlock (width depth : Nat) : List Stmt → String
  | [] => ""
  | s :: ss => s.render width depth ++ renderBlock width depth ss

end

/-- A single argument called `value` stands bare. -/
def AnnotationUse.render (a : AnnotationUse) : String :=
  match a.arguments with
  | [] => "@" ++ a.name
  | [(key,value)] =>
    "@" ++ a.name ++ "(" ++ (if key = "value" then value else key ++ " = " ++ value) ++ ")"
  | pairs => "@" ++ a.name ++ "(" ++ join ", " (pairs.map (fun p => p.1 ++ " = " ++ p.2)) ++ ")"

/-- The modifier with a blank behind it, nothing for package access. -/
def Visibility.modifier (v : Visibility) : String :=
  if v.keyword = "" then "" else v.keyword ++ " "

/-- A documentation comment, on one line if the text is. -/
def renderDoc (pad : String) : Option String → String
  | none => ""
  | some doc =>
    if doc.toList.contains '\n' then
      pad ++ "/**\n" ++ String.join ((lines doc).map (fun l => pad ++ " * " ++ l ++ "\n")) ++
        pad ++ " */\n"
    else pad ++ "/** " ++ doc ++ " */\n"

def renderAnnotations (pad : String) (as : List AnnotationUse) : String :=
  String.join (as.map (fun a => pad ++ a.render ++ "\n"))

def Method.render (width depth : Nat) (m : Method) : String :=
  let pad := margin width depth
  renderDoc pad m.doc ++ renderAnnotations pad m.annotations ++
    pad ++ m.visibility.modifier ++ m.returnType.getD "void" ++ " " ++ m.name ++ "(" ++
    join ", " (m.params.map (fun p => p.type ++ " " ++ p.name)) ++ ") \x7b\n" ++
    renderBlock width (depth + 1) m.body ++ pad ++ "\x7d\n"

def FieldDecl.render (width depth : Nat) (f : FieldDecl) : String :=
  let pad := margin width depth
  let value := match f.initializer with
    | some e => " = " ++ e.render
    | none => ""
  renderDoc pad f.doc ++ renderAnnotations pad f.annotations ++
    pad ++ f.visibility.modifier ++ f.type ++ " " ++ f.name ++ value ++ ";\n"

end EntityLink.Java
