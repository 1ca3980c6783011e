import GoAtlas.Walk

/-!
# Scripted visitors

Visitors that log their calls and follow rules that tell where to skip and where to fail.
-/

namespace GoAtlas

namespace Branch

def word : Branch -> String
  | struct _ => "struct"
  | field _ _ => "field"
  | mapKey _ => "map_key"
  | mapElem _ => "map_elem"
  | pointer _ => "pointer"
  | slice _ => "slice"
  | array _ _ => "array"

def label : Branch -> String
  | struct info => info.name
  | field _ f => f.name
  | mapKey key => key.text
  | mapElem elem => elem.text
  | pointer elem => elem.text
  | slice elem => elem.text
  | array len elem => s!"{len}:{elem.text}"

def info? : Branch -> Option StructInfo
  | struct info => some info
  | field info _ => some info
  | _ => none

end Branch

namespace Leaf

def word : Leaf -> String
  | basic _ => "basic"
  | named _ => "named"

def label : Leaf -> String
  | basic kind => kind.text
  | named name => name.full

end Leaf

structure Event where
  visitor : Nat
  hook : String
  label : String
  context : Context
  info : Option StructInfo

/-- Matches calls of a hook, with one label or with any. -/
structure Rule where
  hook : String
  label : Option String
  message : String

namespace Rule

def fits (r : Rule) (hook label : String) : Bool :=
  r.hook == hook && (r.label.getD label == label)

end Rule

structure Script where
  hooks : Option (List String)
  skips : List Rule
  fails : List Rule

namespace Script

def has (s : Script) (hook : String) : Bool :=
  match s.hooks with
  | none => true
  | some hooks => hooks.contains hook

def full : Script := ⟨none, [], []⟩

def call (s : Script) (e : Event) : Visit (List Event) Unit := do
  modify fun events => events ++ [e]
  match s.fails.find? fun r => r.fits e.hook e.label with
  | some r => throw (.visitor r.message)
  | none => return ()

def flow (s : Script) (hook label : String) : Flow :=
  if s.skips.any fun r => r.fits hook label then .skip else .descend

/-- The visitor with number `index` that follows a script. Hooks it does not have do
nothing. -/
def visitor (s : Script) (index : Nat) : Visitor (List Event) where
  enter c b := do
    let hook := "enter_" ++ b.word
    if s.has hook then
      s.call ⟨index, hook, b.label, c, b.info?⟩
      return s.flow hook b.label
    else return .descend
  leave c b := do
    let hook := "leave_" ++ b.word
    if s.has hook then s.call ⟨index, hook, b.label, c, b.info?⟩
  visit c l := do
    let hook := "visit_" ++ l.word
    if s.has hook then s.call ⟨index, hook, l.label, c, none⟩

/-- The visitor for a list of scripts: a single one is used as it is. A missing script stands
for a visitor that does nothing. -/
def visitors (scripts : List (Option Script)) : Visitor (List Event) :=
  let one (entry : Option Script × Nat) : Visitor (List Event) :=
    match entry.1 with
    | some s => s.visitor entry.2
    | none => Visitor.idle
  match scripts.zipIdx with
  | [entry] => one entry
  | entries => Visitor.all (entries.map one)

def walk (scripts : List (Option Script)) (root : TypeName) (t : GoType) :
    Except Error Unit × List Event :=
  ((visitors scripts).walk root t).run []

end Script
end GoAtlas
