import GoAtlas.Source.Lexeme

/-!
# Grammar: the knot

Types, expressions and statements contain one another. `Grammar` holds one reader for each;
the readers of the modules that follow take it for the parts inside what they read.
-/

namespace GoAtlas
namespace Source

structure Mode where
  /-- A newline ends it. -/
  ending : Bool
  /-- A brace after a type name opens a composite literal. -/
  literals : Bool
  /-- Marks of simple statements, such as `++` and `<-`, may follow it. -/
  statement : Bool
  /-- A `.(type)` may end it. -/
  guards : Bool

namespace Mode

def inner : Mode := ⟨false, true, false, false⟩

def line : Mode := ⟨true, true, false, false⟩

def simple : Mode := ⟨true, true, true, false⟩

def header : Mode := ⟨false, false, true, false⟩

def switchHeader : Mode := ⟨false, false, true, true⟩

def case : Mode := ⟨false, true, true, false⟩

end Mode

structure Grammar where
  /-- A type; the flag says whether a newline ends it. -/
  type : Bool -> Parse TypeExpr
  /-- A type that does not stand in parentheses. -/
  bareType : Bool -> Parse TypeExpr
  expr : Mode -> Parse Expr
  /-- Statements between braces, the braces included. -/
  block : Parse Unit

namespace Grammar

def empty : Grammar := ⟨fun _ => .fail, fun _ => .fail, fun _ => .fail, .fail⟩

end Grammar
end Source
end GoAtlas
