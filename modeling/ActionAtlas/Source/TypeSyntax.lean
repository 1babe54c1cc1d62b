import ActionAtlas.Graph.Rank
import ActionAtlas.Text.Cut

/-!
Types as they are written in source text, before any name is resolved.
-/

namespace ActionAtlas.Source

inductive TypeSyntax where
  | predefined (keyword : String)
  | name (segments : List (String × List TypeSyntax))
  | array (element : TypeSyntax) (rank : Rank)
  | nullable (underlying : TypeSyntax)
  /-- Any other form, as it stands in the text. -/
  | verbatim (text : String)
deriving Repr

namespace TypeSyntax

def dottedName? : TypeSyntax → Option String
  | name segments => some (Text.dotted (segments.map (·.1)))
  | _ => none

end TypeSyntax

end ActionAtlas.Source
