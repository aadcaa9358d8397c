import EntityLink.Java.Run
import EntityLink.Synthesis

namespace EntityLink.Synthesis
open Java

def ofType? (s : Synthesis) (type : String) : Option GeneratedEntity :=
  s.entities.find? (·.entity == type)

/-- The generated classes as a program: entities carry their qualified names. -/
def program (s : Synthesis) : Program where
  method? type name := (s.ofType? type).bind (·.method? name)
  implements type interface := (s.ofType? type).any (·.interfaces.contains interface)

end EntityLink.Synthesis
