namespace EntityLink.Text

/-- What stands after the last dot of a dotted name. -/
def simpleName (s : String) : String :=
  String.ofList (s.toList.reverse.takeWhile (· != '.')).reverse

/-- What stands before the last dot of a dotted name, if there is a dot. -/
def package? (s : String) : Option String :=
  match s.toList.reverse.dropWhile (· != '.') with
  | [] => none
  | _ :: rest => some (String.ofList rest.reverse)

end EntityLink.Text
