import GoAtlas.Check.Resolution
import Mathlib.Data.List.Forall2

/-!
# Members of structs and interfaces

Each field and each method that is written is a member.  Of the members with one name the first
stands, and every later one is complained about; blank fields may be as many as there are.  The
shape that is written for a type says what becomes of it, however its names are resolved.
-/

namespace GoAtlas
namespace Source

/-!
# Parameters
-/

namespace Param

def isVariadic : Param -> Bool
  | plain _ _ => false
  | variadic _ _ => true

/-- The types that parameters are given, one for each name.  The rest of the arguments comes in a
slice. -/
def places : Param -> List TypeExpr
  | plain names type => List.replicate (max names.length 1) type
  | variadic _ type => [.slice type.extent type]

end Param

/-!
# Members
-/

/-- A name in a struct or an interface, with its line and what is written as its type. -/
structure Member where
  name : String
  line : Nat
  type : TypeExpr

namespace Member

section Firsts

variable (free : String -> Bool)

def firsts : List String -> List Member -> List Member
  | _, [] => []
  | seen, m :: rest =>
      if !free m.name && seen.contains m.name then firsts seen rest
      else m :: firsts (seen ++ [m.name]) rest

def repeated : List String -> List Member -> List Member
  | _, [] => []
  | seen, m :: rest =>
      if !free m.name && seen.contains m.name then m :: repeated seen rest
      else repeated (seen ++ [m.name]) rest

def seenAfter (seen : List String) (members : List Member) : List String :=
  seen ++ (firsts free seen members).map Member.name

variable {free} {seen : List String}

theorem firsts_append (xs ys : List Member) :
    firsts free seen (xs ++ ys) =
      firsts free seen xs ++ firsts free (seenAfter free seen xs) ys := by
  unfold seenAfter
  induction xs generalizing seen with
  | nil =>
      rw [firsts, List.map_nil, List.append_nil]
      rfl
  | cons m rest ih =>
      rw [List.cons_append, firsts, firsts]
      split
      · exact ih
      · rw [ih, List.map_cons, List.append_assoc]
        rfl

theorem repeated_append (xs ys : List Member) :
    repeated free seen (xs ++ ys) =
      repeated free seen xs ++ repeated free (seenAfter free seen xs) ys := by
  unfold seenAfter
  induction xs generalizing seen with
  | nil =>
      rw [firsts, List.map_nil, List.append_nil]
      rfl
  | cons m rest ih =>
      rw [List.cons_append, firsts, repeated, repeated]
      split
      · rw [ih, List.cons_append]
      · rw [ih, List.map_cons, List.append_assoc]
        rfl

theorem mem_of_mem_firsts {members : List Member} {m : Member} (h : m ∈ firsts free seen members) :
    m ∈ members := by
  induction members generalizing seen with
  | nil => cases h
  | cons n rest ih =>
      rw [firsts] at h
      split at h
      · exact List.mem_cons_of_mem _ (ih h)
      · rcases List.mem_cons.mp h with rfl | hrest
        · exact List.mem_cons_self
        · exact List.mem_cons_of_mem _ (ih hrest)

theorem not_mem_of_firsts {members : List Member} {name : String}
    (h : name ∈ (firsts free seen members).map Member.name) (hname : free name = false) :
    name ∉ seen := by
  induction members generalizing seen with
  | nil => cases h
  | cons m rest ih =>
      rw [firsts] at h
      split at h
      · exact ih h
      · next hnew =>
          rcases List.mem_cons.mp h with rfl | hrest
          · rw [hname] at hnew
            simpa using hnew
          · exact fun hseen => ih hrest (List.mem_append_left _ hseen)

theorem nodup_firsts (members : List Member) :
    (((firsts free seen members).map Member.name).filter fun name => !free name).Nodup := by
  induction members generalizing seen with
  | nil => exact List.nodup_nil
  | cons m rest ih =>
      rw [firsts]
      split
      · exact ih
      · rw [List.map_cons, List.filter_cons]
        split
        · next hname =>
            rw [Bool.not_eq_true'] at hname
            refine List.nodup_cons.mpr ⟨fun hmem => ?_, ih⟩
            refine not_mem_of_firsts (List.mem_filter.mp hmem).1 hname ?_
            exact List.mem_append_right _ (List.mem_singleton_self _)
        · exact ih

end Firsts

end Member

def isBlank (name : String) : Bool := name == "_"

def noneFree (_ : String) : Bool := false

/-- The fields of a declaration.  An embedded type is a field by the name of the type. -/
def FieldDecl.members : FieldDecl -> List Member
  | .named _ names type _ => names.map fun x => ⟨x.text, x.line, type⟩
  | .embedded _ star type _ =>
      [⟨Scope.embeddedName type, type.extent.line,
        if star then .pointer type.extent type else type⟩]

namespace InterfaceElem

def members : InterfaceElem -> List Member
  | method x name params results => [⟨name.text, x.line, .func x params results⟩]
  | union _ => []

def terms : InterfaceElem -> List TypeExpr
  | method _ _ _ _ => []
  | union terms => terms

end InterfaceElem

def fieldsOf (decls : List FieldDecl) : List Member :=
  Member.firsts isBlank [] (decls.flatMap FieldDecl.members)

def methodsOf (elems : List InterfaceElem) : List Member :=
  Member.firsts noneFree [] (elems.flatMap InterfaceElem.members)

/-!
# Shapes
-/

/-- The type has the shape that is written.  A name can stand for any type, and of an array whose
length is not known there is none. -/
inductive TypeExpr.Shapes : TypeExpr -> GoType -> Prop where
  | name (x : Extent) (type : GoType) : Shapes (.name x) type
  | qualified (x package name : Extent) (type : GoType) : Shapes (.qualified x package name) type
  | generic {x : Extent} {base : TypeExpr} {arguments : List TypeExpr} {type : GoType}
      (h : Shapes base type) : Shapes (.generic x base arguments) type
  | paren {x : Extent} {inner : TypeExpr} {type : GoType} (h : Shapes inner type) :
      Shapes (.paren x inner) type
  | negated {x : Extent} {inner : TypeExpr} {type : GoType} (h : Shapes inner type) :
      Shapes (.negated x inner) type
  | pointer {x : Extent} {elem : TypeExpr} {type : GoType} (h : Shapes elem type) :
      Shapes (.pointer x elem) (.pointer type)
  | slice {x : Extent} {elem : TypeExpr} {type : GoType} (h : Shapes elem type) :
      Shapes (.slice x elem) (.slice type)
  | array {x : Extent} {len : Expr} {elem : TypeExpr} {type : GoType} (n : Nat)
      (h : Shapes elem type) : Shapes (.array x len elem) (.array n type)
  | unsized (x : Extent) (len : Expr) (elem : TypeExpr) : Shapes (.array x len elem) .invalid
  | map {x : Extent} {key value : TypeExpr} {k v : GoType} (hkey : Shapes key k)
      (hvalue : Shapes value v) : Shapes (.map x key value) (.map k v)
  | chan {x : Extent} {dir : Direction} {elem : TypeExpr} {type : GoType} (h : Shapes elem type) :
      Shapes (.chan x dir elem) (.chan dir type)
  | func {x : Extent} {params results : List Param} {types found : List GoType}
      (hparams : List.Forall₂ Shapes (params.flatMap Param.places) types)
      (hresults : List.Forall₂ Shapes (results.flatMap Param.places) found) :
      Shapes (.func x params results) (.func ⟨types, found, params.any Param.isVariadic⟩)
  | struct {x : Extent} {decls : List FieldDecl} {fields : List (Field GoType)}
      (hnames : fields.map Field.name = (fieldsOf decls).map Member.name)
      (htypes : List.Forall₂ Shapes ((fieldsOf decls).map Member.type) (fields.map Field.type)) :
      Shapes (.struct x decls) (.struct fields)
  | interface {x : Extent} {elems : List InterfaceElem} {methods : List (InterfaceMethod GoType)}
      {embedded : List GoType}
      (hnames : methods.map InterfaceMethod.name = (methodsOf elems).map Member.name)
      (htypes : List.Forall₂ Shapes ((methodsOf elems).map Member.type)
        (methods.map fun m => .func m.signature))
      (hterms : List.Forall₂ Shapes (elems.flatMap InterfaceElem.terms) embedded) :
      Shapes (.interface x elems) (.interface methods embedded)

/-!
# Repeated names
-/

namespace Member

def redeclared (file : String) (m : Member) : TypeError :=
  ⟨.fieldRedeclared m.name, false, some file, some m.line⟩

def duplicated (file : String) (m : Member) : TypeError :=
  ⟨.duplicateMethod m.name, false, some file, some m.line⟩

end Member

section Repeats

variable (file : String)

mutual

/-- A complaint for each field or method, at any depth of the type, whose name was there before.
Lengths of arrays are left out. -/
def typeRepeats : TypeExpr -> List TypeError
  | .name _ => []
  | .qualified _ _ _ => []
  | .generic _ base _ => typeRepeats base
  | .paren _ inner => typeRepeats inner
  | .negated _ inner => typeRepeats inner
  | .pointer _ elem => typeRepeats elem
  | .slice _ elem => typeRepeats elem
  | .array _ _ elem => typeRepeats elem
  | .map _ key value => typeRepeats key ++ typeRepeats value
  | .chan _ _ elem => typeRepeats elem
  | .func _ params results => paramsRepeats params ++ paramsRepeats results
  | .struct _ decls => fieldsRepeats [] decls
  | .interface _ elems => elemsRepeats [] elems

def typesRepeats : List TypeExpr -> List TypeError
  | [] => []
  | type :: rest => typeRepeats type ++ typesRepeats rest

def paramsRepeats : List Param -> List TypeError
  | [] => []
  | .plain _ type :: rest => typeRepeats type ++ paramsRepeats rest
  | .variadic _ type :: rest => typeRepeats type ++ paramsRepeats rest

def fieldsRepeats (seen : List String) : List FieldDecl -> List TypeError
  | [] => []
  | .named x names type tag :: rest =>
      let members := (FieldDecl.named x names type tag).members
      typeRepeats type ++ (Member.repeated isBlank seen members).map (Member.redeclared file) ++
        fieldsRepeats (Member.seenAfter isBlank seen members) rest
  | .embedded x star type tag :: rest =>
      let members := (FieldDecl.embedded x star type tag).members
      typeRepeats type ++ (Member.repeated isBlank seen members).map (Member.redeclared file) ++
        fieldsRepeats (Member.seenAfter isBlank seen members) rest

def elemsRepeats (seen : List String) : List InterfaceElem -> List TypeError
  | [] => []
  | .method x name params results :: rest =>
      let members := (InterfaceElem.method x name params results).members
      paramsRepeats params ++ paramsRepeats results ++
        (Member.repeated noneFree seen members).map (Member.duplicated file) ++
        elemsRepeats (Member.seenAfter noneFree seen members) rest
  | .union terms :: rest => typesRepeats terms ++ elemsRepeats seen rest

end

end Repeats

end Source
end GoAtlas
