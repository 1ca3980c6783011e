import GoAtlas.Walk

/-!
# Outlines

A visitor that draws a type as indented lines.
-/

namespace GoAtlas
namespace Outline

def branchText : Branch -> String
  | .struct _ => "struct"
  | .field _ f =>
      let text := if f.embedded then "(embedded) " ++ f.type.text else f.name
      match f.tag with
      | some tag => text ++ " \x60" ++ tag ++ "\x60"
      | none => text
  | .mapKey _ => "key"
  | .mapElem _ => "elem"
  | .pointer _ => "*"
  | .slice _ => "[]"
  | .array len _ => "[" ++ toString len ++ "]"

def leafText : Leaf -> String
  | .basic kind => kind.text
  | .named name => name.full

def line (c : Context) (text : String) : Visit (List String) Unit :=
  modify fun lines => lines ++ [String.join (List.replicate c.depth "  ") ++ text]

def visitor : Visitor (List String) where
  enter c b := do
    line c (branchText b)
    return .descend
  leave _ _ := return ()
  visit c l := line c (leafText l)

def render (root : TypeName) (t : GoType) : Except Error (List String) :=
  match (visitor.walk root t).run [] with
  | (.ok _, lines) => .ok lines
  | (.error e, _) => .error e

end Outline
end GoAtlas
