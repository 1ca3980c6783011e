import GoAtlas.Source.ExprGrammar

/-!
# Grammar of declarations

Constants, variables and types, at the top of a file and inside functions alike, and imports.
-/

namespace GoAtlas
namespace Source
namespace Grammar

open Parse

def group {α : Type} (item : Parse α) : Parse (List α) := do
  if ← follows false "(" then terminated ")" item else return [← item]

def exprList (g : Grammar) (m : Mode) : Parse (List Expr) :=
  commaList m.ending (g.expr m)

/-! # Constants and variables -/

def constNames : Parse (List Extent) := do
  let first ← ident
  let more ← many do
    onward true do
      let a ← get
      if ← take "," then
        let comma ← since a
        return some [comma, ← ident]
      else return none
  return first :: more.flatten

def constSpec (g : Grammar) : Parse ConstSpec := do
  let a ← here
  let names ← constNames
  let bare ← get
  if ← atTerminator then
    set bare
    return ⟨← since a, names, none, none⟩
  else
    let type ← if ← sees "=" then pure none else pure (some (← g.type false))
    symbol "="
    let values ← exprList g Mode.line
    return ⟨← since a, names, type, some values⟩

def varSpec (g : Grammar) : Parse (List Extent) := do
  let names ← commaList false ident
  if ← follows false "=" then
    let _ ← exprList g Mode.line
  else
    let _ ← g.type true
    if ← follows true "=" then
      let _ ← exprList g Mode.line
  return names

/-! # Types -/

def noteTypeSpec (spec : TypeSpec) : Parse TypeSpec := do
  modify fun c => { c with typeSpecs := spec :: c.typeSpecs }
  return spec

/-- A type after the name of its declaration: brackets hold a length if they can, and type
parameters otherwise. -/
def declaredType (g : Grammar) : Parse (List String × TypeExpr) :=
  either
    (do return ([], ← g.type true))
    (do
      let params ← typeParameters g
      return (params, ← g.type true))

def typeSpec (g : Grammar) : Parse TypeSpec := do
  let a ← here
  let name ← ident
  if ← follows false "=" then
    let type ← g.type true
    noteTypeSpec ⟨← since a, name, [], true, type⟩
  else
    let (params, type) ← declaredType g
    noteTypeSpec ⟨← since a, name, params, false, type⟩

/-! # Imports -/

def importLabel : Parse (Option ImportLabel) :=
  onward false do
    if ← take "." then return some .dot
    else
      match ← word with
      | "" => return none
      | "_" => do
          move 1
          return some .blank
      | _ => return some (.named (← ident))

def importSpec : Parse ImportSpec := do
  let a ← here
  let label ← importLabel
  let path ← stringLiteral
  return ⟨← since a, label, path⟩

def importDecl : Parse (List ImportSpec) := do
  if ← follows false "(" then separated ")" importSpec else return [← importSpec]

end Grammar
end Source
end GoAtlas
