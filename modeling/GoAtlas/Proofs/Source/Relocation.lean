import GoAtlas.Check.Receiver
import GoAtlas.Check.Scope

/-!
# Moved declarations

A declaration that stands elsewhere has other extents with the same texts.  Relocation replaces
all extents of a piece of source; what depends on texts only does not notice.
-/

namespace GoAtlas
namespace Source

def KeepsText (f : Extent -> Extent) : Prop :=
  forall x, (f x).text = x.text

mutual

def TypeExpr.relocate (f : Extent -> Extent) : TypeExpr -> TypeExpr
  | .name x => .name (f x)
  | .qualified x package name => .qualified (f x) (f package) (f name)
  | .generic x base arguments => .generic (f x) (base.relocate f) (relocateTypes f arguments)
  | .paren x inner => .paren (f x) (inner.relocate f)
  | .negated x inner => .negated (f x) (inner.relocate f)
  | .pointer x elem => .pointer (f x) (elem.relocate f)
  | .slice x elem => .slice (f x) (elem.relocate f)
  | .array x len elem => .array (f x) (len.relocate f) (elem.relocate f)
  | .map x key value => .map (f x) (key.relocate f) (value.relocate f)
  | .chan x dir elem => .chan (f x) dir (elem.relocate f)
  | .func x params results => .func (f x) (relocateParams f params) (relocateParams f results)
  | .struct x fields => .struct (f x) (relocateFields f fields)
  | .interface x elems => .interface (f x) (relocateElems f elems)

def Expr.relocate (f : Extent -> Extent) : Expr -> Expr
  | .int x => .int (f x)
  | .float x => .float (f x)
  | .imaginary x => .imaginary (f x)
  | .rune x => .rune (f x)
  | .string x => .string (f x)
  | .bool x value => .bool (f x) value
  | .iota x => .iota (f x)
  | .nil x => .nil (f x)
  | .ident x => .ident (f x)
  | .paren x inner => .paren (f x) (inner.relocate f)
  | .selector x operand field => .selector (f x) (operand.relocate f) (f field)
  | .unary x op operand => .unary (f x) op (operand.relocate f)
  | .binary x op left right => .binary (f x) op (left.relocate f) (right.relocate f)
  | .call x function arguments =>
      .call (f x) (function.relocate f) (relocateExprs f arguments)
  | .conversion x type operand => .conversion (f x) (type.relocate f) (operand.relocate f)
  | .other x => .other (f x)

def relocateTypes (f : Extent -> Extent) : List TypeExpr -> List TypeExpr
  | [] => []
  | type :: rest => type.relocate f :: relocateTypes f rest

def relocateExprs (f : Extent -> Extent) : List Expr -> List Expr
  | [] => []
  | e :: rest => e.relocate f :: relocateExprs f rest

def relocateParams (f : Extent -> Extent) : List Param -> List Param
  | [] => []
  | .plain names type :: rest =>
      .plain (names.map f) (type.relocate f) :: relocateParams f rest
  | .variadic name type :: rest =>
      .variadic (name.map f) (type.relocate f) :: relocateParams f rest

def relocateFields (f : Extent -> Extent) : List FieldDecl -> List FieldDecl
  | [] => []
  | .named x names type tag :: rest =>
      .named (f x) (names.map f) (type.relocate f) (tag.map f) :: relocateFields f rest
  | .embedded x star type tag :: rest =>
      .embedded (f x) star (type.relocate f) (tag.map f) :: relocateFields f rest

def relocateElems (f : Extent -> Extent) : List InterfaceElem -> List InterfaceElem
  | [] => []
  | .method x name params results :: rest =>
      .method (f x) (f name) (relocateParams f params) (relocateParams f results) ::
        relocateElems f rest
  | .union terms :: rest => .union (relocateTypes f terms) :: relocateElems f rest

end

@[simp] theorem TypeExpr.extent_relocate (f : Extent -> Extent) (type : TypeExpr) :
    (type.relocate f).extent = f type.extent := by
  cases type <;> rfl

@[simp] theorem Expr.extent_relocate (f : Extent -> Extent) (e : Expr) :
    (e.relocate f).extent = f e.extent := by
  cases e <;> rfl

/-!
# Staying in place
-/

mutual

theorem TypeExpr.relocate_id (type : TypeExpr) : type.relocate id = type := by
  match type with
  | .name x => rfl
  | .qualified x package name => rfl
  | .generic x base arguments =>
      rw [TypeExpr.relocate, base.relocate_id, relocateTypes_id arguments, id]
  | .paren x inner => rw [TypeExpr.relocate, inner.relocate_id, id]
  | .negated x inner => rw [TypeExpr.relocate, inner.relocate_id, id]
  | .pointer x elem => rw [TypeExpr.relocate, elem.relocate_id, id]
  | .slice x elem => rw [TypeExpr.relocate, elem.relocate_id, id]
  | .array x len elem => rw [TypeExpr.relocate, len.relocate_id, elem.relocate_id, id]
  | .map x key value => rw [TypeExpr.relocate, key.relocate_id, value.relocate_id, id]
  | .chan x dir elem => rw [TypeExpr.relocate, elem.relocate_id, id]
  | .func x params results =>
      rw [TypeExpr.relocate, relocateParams_id params, relocateParams_id results, id]
  | .struct x fields => rw [TypeExpr.relocate, relocateFields_id fields, id]
  | .interface x elems => rw [TypeExpr.relocate, relocateElems_id elems, id]

theorem Expr.relocate_id (e : Expr) : e.relocate id = e := by
  match e with
  | .int x => rfl
  | .float x => rfl
  | .imaginary x => rfl
  | .rune x => rfl
  | .string x => rfl
  | .bool x value => rfl
  | .iota x => rfl
  | .nil x => rfl
  | .ident x => rfl
  | .paren x inner => rw [Expr.relocate, inner.relocate_id, id]
  | .selector x operand field => rw [Expr.relocate, operand.relocate_id, id, id]
  | .unary x op operand => rw [Expr.relocate, operand.relocate_id, id]
  | .binary x op left right => rw [Expr.relocate, left.relocate_id, right.relocate_id, id]
  | .call x function arguments =>
      rw [Expr.relocate, function.relocate_id, relocateExprs_id arguments, id]
  | .conversion x type operand =>
      rw [Expr.relocate, type.relocate_id, operand.relocate_id, id]
  | .other x => rfl

theorem relocateTypes_id (types : List TypeExpr) : relocateTypes id types = types := by
  match types with
  | [] => rfl
  | type :: rest => rw [relocateTypes, type.relocate_id, relocateTypes_id rest]

theorem relocateExprs_id (es : List Expr) : relocateExprs id es = es := by
  match es with
  | [] => rfl
  | e :: rest => rw [relocateExprs, e.relocate_id, relocateExprs_id rest]

theorem relocateParams_id (params : List Param) : relocateParams id params = params := by
  match params with
  | [] => rfl
  | .plain names type :: rest =>
      rw [relocateParams, type.relocate_id, relocateParams_id rest, List.map_id]
  | .variadic name type :: rest =>
      rw [relocateParams, type.relocate_id, relocateParams_id rest, Option.map_id, id]

theorem relocateFields_id (fields : List FieldDecl) : relocateFields id fields = fields := by
  match fields with
  | [] => rfl
  | .named x names type tag :: rest =>
      rw [relocateFields, type.relocate_id, relocateFields_id rest, List.map_id, Option.map_id]
      rfl
  | .embedded x star type tag :: rest =>
      rw [relocateFields, type.relocate_id, relocateFields_id rest, Option.map_id]
      rfl

theorem relocateElems_id (elems : List InterfaceElem) : relocateElems id elems = elems := by
  match elems with
  | [] => rfl
  | .method x name params results :: rest =>
      rw [relocateElems, relocateParams_id params, relocateParams_id results,
        relocateElems_id rest]
      rfl
  | .union terms :: rest => rw [relocateElems, relocateTypes_id terms, relocateElems_id rest]

end

/-!
# Receivers
-/

section Identifiers

variable {f : Extent -> Extent}

theorem map_text (hf : KeepsText f) (names : List Extent) :
    (names.map f).map (fun x => x.text) = names.map fun x => x.text := by
  rw [List.map_map]
  exact List.map_congr_left fun x _ => hf x

mutual

theorem typeIdents_relocate (hf : KeepsText f) (type : TypeExpr) :
    typeIdents (type.relocate f) = typeIdents type := by
  match type with
  | .name x => rw [TypeExpr.relocate, typeIdents, typeIdents, hf x]
  | .qualified x package name => rw [TypeExpr.relocate, typeIdents, typeIdents, hf name]
  | .generic x base arguments =>
      rw [TypeExpr.relocate, typeIdents, typeIdents, typeIdents_relocate hf base,
        typesIdents_relocate hf arguments]
  | .paren x inner =>
      rw [TypeExpr.relocate, typeIdents, typeIdents, typeIdents_relocate hf inner]
  | .negated x inner =>
      rw [TypeExpr.relocate, typeIdents, typeIdents, typeIdents_relocate hf inner]
  | .pointer x elem => rw [TypeExpr.relocate, typeIdents, typeIdents, typeIdents_relocate hf elem]
  | .slice x elem => rw [TypeExpr.relocate, typeIdents, typeIdents, typeIdents_relocate hf elem]
  | .array x len elem =>
      rw [TypeExpr.relocate, typeIdents, typeIdents, exprIdents_relocate hf len,
        typeIdents_relocate hf elem]
  | .map x key value =>
      rw [TypeExpr.relocate, typeIdents, typeIdents, typeIdents_relocate hf key,
        typeIdents_relocate hf value]
  | .chan x dir elem => rw [TypeExpr.relocate, typeIdents, typeIdents, typeIdents_relocate hf elem]
  | .func x params results =>
      rw [TypeExpr.relocate, typeIdents, typeIdents, paramsIdents_relocate hf params,
        paramsIdents_relocate hf results]
  | .struct x fields =>
      rw [TypeExpr.relocate, typeIdents, typeIdents, fieldsIdents_relocate hf fields]
  | .interface x elems =>
      rw [TypeExpr.relocate, typeIdents, typeIdents, elemsIdents_relocate hf elems]

theorem exprIdents_relocate (hf : KeepsText f) (e : Expr) :
    exprIdents (e.relocate f) = exprIdents e := by
  match e with
  | .int x => rfl
  | .float x => rfl
  | .imaginary x => rfl
  | .rune x => rfl
  | .string x => rfl
  | .bool x value => rfl
  | .iota x => rfl
  | .nil x => rfl
  | .ident x => rw [Expr.relocate, exprIdents, exprIdents, hf x]
  | .paren x inner => rw [Expr.relocate, exprIdents, exprIdents, exprIdents_relocate hf inner]
  | .selector x operand field =>
      rw [Expr.relocate, exprIdents, exprIdents, exprIdents_relocate hf operand]
  | .unary x op operand =>
      rw [Expr.relocate, exprIdents, exprIdents, exprIdents_relocate hf operand]
  | .binary x op left right =>
      rw [Expr.relocate, exprIdents, exprIdents, exprIdents_relocate hf left,
        exprIdents_relocate hf right]
  | .call x function arguments =>
      rw [Expr.relocate, exprIdents, exprIdents, exprIdents_relocate hf function,
        exprsIdents_relocate hf arguments]
  | .conversion x type operand =>
      rw [Expr.relocate, exprIdents, exprIdents, typeIdents_relocate hf type,
        exprIdents_relocate hf operand]
  | .other x => rfl

theorem typesIdents_relocate (hf : KeepsText f) (types : List TypeExpr) :
    typesIdents (relocateTypes f types) = typesIdents types := by
  match types with
  | [] => rfl
  | type :: rest =>
      rw [relocateTypes, typesIdents, typesIdents, typeIdents_relocate hf type,
        typesIdents_relocate hf rest]

theorem exprsIdents_relocate (hf : KeepsText f) (es : List Expr) :
    exprsIdents (relocateExprs f es) = exprsIdents es := by
  match es with
  | [] => rfl
  | e :: rest =>
      rw [relocateExprs, exprsIdents, exprsIdents, exprIdents_relocate hf e,
        exprsIdents_relocate hf rest]

theorem paramsIdents_relocate (hf : KeepsText f) (params : List Param) :
    paramsIdents (relocateParams f params) = paramsIdents params := by
  match params with
  | [] => rfl
  | .plain names type :: rest =>
      rw [relocateParams, paramsIdents, paramsIdents, map_text hf, typeIdents_relocate hf type,
        paramsIdents_relocate hf rest]
  | .variadic name type :: rest =>
      rw [relocateParams, paramsIdents, paramsIdents, Option.toList_map, map_text hf,
        typeIdents_relocate hf type, paramsIdents_relocate hf rest]

theorem fieldsIdents_relocate (hf : KeepsText f) (fields : List FieldDecl) :
    fieldsIdents (relocateFields f fields) = fieldsIdents fields := by
  match fields with
  | [] => rfl
  | .named x names type tag :: rest =>
      rw [relocateFields, fieldsIdents, fieldsIdents, typeIdents_relocate hf type,
        fieldsIdents_relocate hf rest]
  | .embedded x star type tag :: rest =>
      rw [relocateFields, fieldsIdents, fieldsIdents, typeIdents_relocate hf type,
        fieldsIdents_relocate hf rest]

theorem elemsIdents_relocate (hf : KeepsText f) (elems : List InterfaceElem) :
    elemsIdents (relocateElems f elems) = elemsIdents elems := by
  match elems with
  | [] => rfl
  | .method x name params results :: rest =>
      rw [relocateElems, elemsIdents, elemsIdents, paramsIdents_relocate hf params,
        paramsIdents_relocate hf results, elemsIdents_relocate hf rest]
  | .union terms :: rest =>
      rw [relocateElems, elemsIdents, elemsIdents, typesIdents_relocate hf terms,
        elemsIdents_relocate hf rest]

end

theorem Receiver.ofType_relocate (hf : KeepsText f) (type : TypeExpr) :
    Receiver.ofType (type.relocate f) = Receiver.ofType type := by
  fun_induction Receiver.ofType type with
  | case1 x elem _ ih => rw [TypeExpr.relocate, Receiver.ofType, ih]
  | case2 x inner ih => rw [TypeExpr.relocate, Receiver.ofType, ih]
  | case3 x base arguments _ ih =>
      rw [TypeExpr.relocate, Receiver.ofType, ih, typesIdents_relocate hf]
  | case4 type hpointer hparen hgeneric =>
      have htext : (type.relocate f).extent.text = type.extent.text := by
        rw [TypeExpr.extent_relocate, hf]
      cases type with
      | pointer x elem => exact absurd rfl (hpointer x elem)
      | paren x inner => exact absurd rfl (hparen x inner)
      | generic x base arguments => exact absurd rfl (hgeneric x base arguments)
      | _ =>
          rw [← htext]
          rfl

end Identifiers

theorem receiverType?_relocate (f : Extent -> Extent) (params : List Param) :
    receiverType? (relocateParams f params) =
      (receiverType? params).map (TypeExpr.relocate f) := by
  fun_induction receiverType? params with
  | case1 => rfl
  | case2 names type rest => rfl
  | case3 name type rest ih =>
      rw [relocateParams, receiverType?]
      exact ih

/-!
# Declarations of a file
-/

def TypeSpec.relocate (f : Extent -> Extent) (spec : TypeSpec) : TypeSpec :=
  ⟨f spec.extent, f spec.name, spec.params, spec.isAlias, spec.type.relocate f⟩

def ConstSpec.relocate (f : Extent -> Extent) (spec : ConstSpec) : ConstSpec :=
  ⟨f spec.extent, spec.names.map f, spec.type.map (TypeExpr.relocate f),
    spec.values.map fun values => values.map (Expr.relocate f)⟩

def ImportLabel.relocate (f : Extent -> Extent) : ImportLabel -> ImportLabel
  | dot => dot
  | blank => blank
  | named x => named (f x)

def ImportSpec.relocate (f : Extent -> Extent) (spec : ImportSpec) : ImportSpec :=
  ⟨f spec.extent, spec.label.map (ImportLabel.relocate f), f spec.path⟩

def MethodDecl.relocate (f : Extent -> Extent) (d : MethodDecl) : MethodDecl :=
  ⟨f d.extent, relocateParams f d.receiver, f d.name, relocateParams f d.params,
    relocateParams f d.results⟩

def Decl.relocate (f : Extent -> Extent) : Decl -> Decl
  | imports specs => imports (specs.map (ImportSpec.relocate f))
  | types specs => types (specs.map (TypeSpec.relocate f))
  | consts specs => consts (specs.map (ConstSpec.relocate f))
  | vars names => vars (names.map f)
  | func name => func (f name)
  | method d => method (d.relocate f)
  | package clause name => package (f clause) (f name)
  | statement => statement

def Decl.Moved (d d' : Decl) : Prop :=
  exists f, KeepsText f ∧ d' = d.relocate f

end Source

/-!
# Declarations of a scope
-/

def TypeDecl.relocate (f : Source.Extent -> Source.Extent) (d : TypeDecl) : TypeDecl :=
  ⟨d.file, d.spec.relocate f⟩

def ConstDecl.relocate (f : Source.Extent -> Source.Extent) (d : ConstDecl) : ConstDecl :=
  ⟨d.name, d.file, f d.spec, d.type.map (Source.TypeExpr.relocate f),
    d.expr.map (Source.Expr.relocate f), d.iota⟩

def MethodSource.relocate (f : Source.Extent -> Source.Extent) (m : MethodSource) :
    MethodSource :=
  ⟨m.file, m.decl.relocate f⟩

def MethodSource.Moved (m m' : MethodSource) : Prop :=
  exists f, Source.KeepsText f ∧ m' = m.relocate f

theorem TypeDecl.relocate_id (d : TypeDecl) : d.relocate id = d := by
  unfold relocate Source.TypeSpec.relocate
  rw [Source.TypeExpr.relocate_id]
  rfl

theorem ConstDecl.relocate_id (d : ConstDecl) : d.relocate id = d := by
  have htype : Source.TypeExpr.relocate id = id := funext Source.TypeExpr.relocate_id
  have hexpr : Source.Expr.relocate id = id := funext Source.Expr.relocate_id
  unfold relocate
  rw [htype, hexpr, Option.map_id, Option.map_id]
  rfl

end GoAtlas
