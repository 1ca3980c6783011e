import GoAtlas.Session.MethodSet

/-!
# Constants of a type

The constants that a package declares with exactly one of its types. A type that has a
method `IsEnum` without parameters and results is an enumeration: its constants are all its
values.
-/

namespace GoAtlas

structure ConstGroup where
  type : TypeName
  underlying : GoType
  isEnum : Bool
  /-- Full names and values, in the order of declaration. -/
  values : List (TypeName × Constant)

namespace ConstGroup

def sorted (g : ConstGroup) : List (TypeName × Constant) :=
  g.values.mergeSort fun a b => a.1.full ≤ b.1.full

def size (g : ConstGroup) : Nat := g.values.length

def marker : String := "IsEnum"

end ConstGroup

namespace TypeName

def isType (n : TypeName) : GoType -> Bool
  | .named name => name == n
  | _ => false

end TypeName

namespace Session

def isEnum (s : Session) (name : TypeName) : Bool :=
  match (s.methodSet (.named name)).get? ConstGroup.marker with
  | some signature => signature.isNullary
  | none => false

def constsOf (type : TypeName) (unexported : Bool) (consts : List ConstDef) :
    List (TypeName × Constant) :=
  (consts.filter fun c => type.isType c.type && (unexported || isExported c.name)).map fun c =>
    (.declared type.packagePath c.name, c.value)

def constGroup (s : Session) (name : TypeName) (unexported : Bool) : Except Error ConstGroup :=
  match s.definition? name with
  | none => .error (.objectNotFound name.full)
  | some d =>
      if d.isAlias then
        .error (.objectNotFound (name.full ++ " is an alias, not a defined type"))
      else
        match s.package? name.packagePath with
        | none => .error (.packageNotFound name.packagePath)
        | some p =>
            .ok ⟨name, d.underlying, s.isEnum name, constsOf name unexported p.consts⟩

end Session
end GoAtlas
