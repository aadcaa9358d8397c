import EntityLink.Text.Split

namespace EntityLink.Text

/-- The texts of a list one after another, `sep` between each two. -/
def join (sep : String) : List String → String
  | [] => ""
  | [s] => s
  | s :: t :: ss => s ++ sep ++ join sep (t :: ss)

def spaces (n : Nat) : String :=
  String.ofList (List.replicate n ' ')

/-- The lines of a text: the pieces before each line feed, less a carriage return there, and
the rest unless it is empty. -/
def lines (s : String) : List String :=
  let pieces := splitAt '\n' s.toList
  let ended := pieces.dropLast.map (fun p => (stripEnd? ['\r'] p).getD p)
  let rest := pieces.getLast?.getD []
  (if rest.isEmpty then ended else ended ++ [rest]).map String.ofList

end EntityLink.Text
