import GoAtlas.Session.Query

/-!
# Method sets

A value of a declared type has the methods with a value receiver, a pointer to it has all of
them. Embedded fields promote their methods, and a shallower method hides a deeper one. An
interface has its own methods and those of the interfaces it embeds.
-/

namespace GoAtlas

abbrev MethodSet := Table (Signature GoType)

/-- Which form of a type satisfies an interface. -/
inductive Implementation where
  | value
  | pointer
  deriving Repr, DecidableEq

namespace Implementation

def text : Implementation -> String
  | value => "value"
  | pointer => "pointer"

end Implementation

/-! # Sizes of types -/

namespace GoType

mutual

def layers : GoType -> Nat
  | interface _ embedded => layersOf embedded + 1
  | _ => 0

def layersOf : List GoType -> Nat
  | [] => 0
  | t :: rest => max (layers t) (layersOf rest)

end

end GoType

namespace Session

/-! # Definitions behind names -/

def typeDef? (s : Session) (name : TypeName) : Option TypeDef :=
  match name with
  | .builtin word =>
      if word == "error" then some (TypeDef.plain name GoType.errorInterface) else none
  | .declared _ _ => s.definition? name

def unaliasWithin (s : Session) : Nat -> GoType -> GoType
  | 0, t => t
  | steps + 1, t =>
      match t.name?.bind s.typeDef? with
      | some d => if d.isAlias then unaliasWithin s steps d.underlying else t
      | none => t

/-- Longer chains of aliases are taken to be broken. -/
def aliasLimit : Nat := 32

def unalias (s : Session) (t : GoType) : GoType :=
  s.unaliasWithin aliasLimit t

/-! # Interfaces -/

def ownMethods (methods : List (InterfaceMethod GoType)) : MethodSet :=
  Table.ofList (methods.map fun m => (m.name, m.signature))

/-- The names of declared interfaces that were already taken apart. -/
abbrev Visited := List String

/-- Adds the methods of embedded types one after another; `inner` gives those of one of them,
or none if it is no interface. -/
def addEmbedded (inner : GoType -> Visited -> Option MethodSet × Visited) :
    List GoType -> MethodSet × Visited -> MethodSet × Visited
  | [], acc => acc
  | t :: rest, (methods, visited) =>
      let (found, visited) := inner t visited
      addEmbedded inner rest (methods.addNew (found.getD Table.empty), visited)

def flatten (inner : GoType -> Visited -> Option MethodSet × Visited)
    (methods : List (InterfaceMethod GoType)) (embedded : List GoType) (visited : Visited) :
    Option MethodSet × Visited :=
  let (methods, visited) := addEmbedded inner embedded (ownMethods methods, visited)
  (some methods, visited)

def interfaceOf? (s : Session) (name : TypeName) :
    Option (List (InterfaceMethod GoType) × List GoType) :=
  match s.typeDef? name with
  | some d =>
      match d.underlying with
      | .interface methods embedded => some (methods, embedded)
      | _ => none
  | none => none

/-- The methods of an interface, up to a number of interfaces inside one another. A declared
interface met again adds nothing. -/
def interfaceWithin (s : Session) :
    Nat -> GoType -> Visited -> Option MethodSet × Visited
  | 0, _, visited => (none, visited)
  | depth + 1, t, visited =>
      match s.unalias t with
      | .named name =>
          if visited.contains name.full then (some Table.empty, visited)
          else
            match s.interfaceOf? name with
            | some (methods, embedded) =>
                flatten (interfaceWithin s depth) methods embedded (name.full :: visited)
            | none => (none, name.full :: visited)
      | .interface methods embedded =>
          flatten (interfaceWithin s depth) methods embedded visited
      | _ => (none, visited)

def known (s : Session) : List TypeDef :=
  s.index.definitions ++ s.packages.flatMap fun p => p.types.values

/-- A bound on how deep interfaces are reached from a type: a declared interface is taken
apart once, and between two of them every alias is followed at most once. -/
def interfaceBound (s : Session) (t : GoType) : Nat :=
  let n := s.known.length + 2
  let layers := GoType.layersOf (t :: s.known.map (·.underlying)) + 1
  n * n * layers

def interfaceMethods? (s : Session) (t : GoType) : Option MethodSet :=
  (s.interfaceWithin (s.interfaceBound t) t []).1

/-! # Promotion -/

/-- A type reached by embedding, and whether its pointer methods can be called there. -/
structure Reached where
  name : TypeName
  viaPointer : Bool

def embeddedTypes (viaPointer : Bool) (fields : List (Field GoType)) : List Reached :=
  (fields.filter (·.embedded)).filterMap fun f =>
    match f.type with
    | .named name => some ⟨name, viaPointer⟩
    | .pointer elem => elem.name?.map fun name => ⟨name, true⟩
    | _ => none

/-- The methods of one declared type without promoted ones, and what it embeds. An alias
stands one level above its target. -/
def oneLevel (s : Session) (r : Reached) : MethodSet × List Reached :=
  match s.typeDef? r.name with
  | none => (Table.empty, [])
  | some d =>
      if d.isAlias then
        match s.unalias d.underlying with
        | .named name => (Table.empty, [⟨name, r.viaPointer⟩])
        | _ => (Table.empty, [])
      else
        match d.underlying with
        | .interface _ _ => ((s.interfaceMethods? (.named r.name)).getD Table.empty, [])
        | underlying =>
            let methods := d.methods.filter fun m => r.viaPointer || !m.onPointer
            (methods.foldl (fun t m => t.insertNew m.name m.signature) Table.empty,
              embeddedTypes r.viaPointer (underlying.fields?.getD []))

/-- One depth of embedding: its methods, the types one deeper, and all names seen. -/
def wholeLevel (s : Session) : List Reached -> Visited -> MethodSet × List Reached × Visited
  | [], seen => (Table.empty, [], seen)
  | r :: rest, seen =>
      if seen.contains r.name.full then wholeLevel s rest seen
      else
        let (methods, inner) := s.oneLevel r
        let (more, deeper, seen) := wholeLevel s rest (r.name.full :: seen)
        (methods.addNew more, inner ++ deeper, seen)

def promotedWithin (s : Session) : Nat -> List Reached -> Visited -> MethodSet
  | 0, _, _ => Table.empty
  | levels + 1, here, seen =>
      if here.isEmpty then Table.empty
      else
        let (methods, deeper, seen) := s.wholeLevel here seen
        methods.addNew (promotedWithin s levels deeper seen)

def promotedMethods (s : Session) (reached : List Reached) : MethodSet :=
  s.promotedWithin (s.known.length + 3) reached []

/-! # Method sets of types -/

def namedMethods (s : Session) (name : TypeName) : MethodSet :=
  match s.typeDef? name with
  | none => Table.empty
  | some d =>
      if d.isInterface then (s.interfaceMethods? (.named name)).getD Table.empty
      else s.promotedMethods [⟨name, false⟩]

def pointerMethods (s : Session) (elem : GoType) : MethodSet :=
  match s.unalias elem with
  | .named name =>
      match s.typeDef? name with
      | some d => if d.isInterface then Table.empty else s.promotedMethods [⟨name, true⟩]
      | none => Table.empty
  | _ => Table.empty

def methodSet (s : Session) (t : GoType) : MethodSet :=
  match s.unalias t with
  | .interface methods embedded =>
      (s.interfaceMethods? (.interface methods embedded)).getD Table.empty
  | .named name => s.namedMethods name
  | .pointer elem => s.pointerMethods elem
  | .struct fields => s.promotedMethods (embeddedTypes false fields)
  | _ => Table.empty

/-! # Satisfaction -/

def satisfies (s : Session) (t : GoType) (required : MethodSet) : Bool :=
  let methods := s.methodSet t
  required.entries.all fun (name, signature) =>
    match methods.get? name with
    | some found => found == signature
    | none => false

def implements (s : Session) (t iface : GoType) : Except Error Bool :=
  match s.interfaceMethods? iface with
  | none => .error (.notInterface iface.text)
  | some required =>
      if t == iface || s.satisfies t required then .ok true
      else
        match t with
        | .pointer _ => .ok false
        | t => .ok (s.satisfies (.pointer t) required)

def implementation? (s : Session) (name : TypeName) (required : MethodSet) :
    Option Implementation :=
  if s.satisfies (.named name) required then some .value
  else if s.satisfies (.pointer (.named name)) required then some .pointer
  else none

/-- The indexed types that satisfy an interface, in the order of their names. Aliases and
interfaces do not count. -/
def implementersOf (s : Session) (iface : TypeName) (required : MethodSet) :
    List (TypeName × Implementation) :=
  s.index.definitions.filterMap fun d =>
    if d.name == iface || d.isAlias || d.isInterface then none
    else (s.implementation? d.name required).map fun form => (d.name, form)

/-- Searches the packages resolved so far; that of the interface is resolved if need be. -/
def findImplementers (iface : TypeName) : Action (List (TypeName × Implementation)) := do
  if ((← get).package? iface.packagePath).isNone then
    let _ ← resolve iface.packagePath
  let s ← get
  match s.definition? iface with
  | none => throw (.objectNotFound iface.full)
  | some d =>
      match s.interfaceMethods? d.asType with
      | none => throw (.notInterface iface.full)
      | some required => return s.implementersOf iface required

end Session
end GoAtlas
