import GoAtlas.Proofs.Check.Tracks

/-!
# Expressions in step

Two scopes that are alike resolve and evaluate an expression in step, also one that stands
elsewhere, and so they work out their declarations.
-/

namespace GoAtlas
namespace Scope

/-!
# Expressions of both kinds
-/

section Expressions

variable {T : Tracking} {sc other : Scope} {links links' : Links}
  {f : Source.Extent -> Source.Extent}

mutual

theorem tracks_resolveType (hT : T.Lawful) (hscope : Alike sc other)
    (hlinks : TrackedLinks T sc other links links') (hf : Source.KeepsText f) (file : String)
    (tparams : List String) (e : Source.TypeExpr) :
    Tracks T (sc.resolveType links file tparams e)
      (other.resolveType links' file tparams (e.relocate f)) := by
  match e with
  | .name x =>
      rw [Source.TypeExpr.relocate, resolveType, resolveType]
      exact tracks_namedType hT hscope hlinks hf file tparams x
  | .qualified _ package name =>
      rw [Source.TypeExpr.relocate, resolveType, resolveType]
      exact tracks_qualifiedType hT hscope hf file package name
  | .generic _ base _ =>
      rw [Source.TypeExpr.relocate, resolveType, resolveType]
      exact tracks_resolveType hT hscope hlinks hf file tparams base
  | .paren _ inner =>
      rw [Source.TypeExpr.relocate, resolveType, resolveType]
      exact tracks_resolveType hT hscope hlinks hf file tparams inner
  | .negated _ inner =>
      rw [Source.TypeExpr.relocate, resolveType, resolveType]
      exact tracks_resolveType hT hscope hlinks hf file tparams inner
  | .pointer _ elem =>
      rw [Source.TypeExpr.relocate, resolveType, resolveType]
      exact (tracks_resolveType hT hscope hlinks hf file tparams elem).bind fun _ => Tracks.pure _
  | .slice _ elem =>
      rw [Source.TypeExpr.relocate, resolveType, resolveType]
      exact (tracks_resolveType hT hscope hlinks hf file tparams elem).bind fun _ => Tracks.pure _
  | .array _ len elem =>
      rw [Source.TypeExpr.relocate, resolveType, resolveType]
      apply (tracks_resolveType hT hscope hlinks hf file tparams elem).bind
      intro elem
      apply (tracks_eval hT hscope hlinks hf file none len).bind
      intro value
      rw [Source.Expr.extent_relocate, hf]
      cases lengthOf? value with
      | some n => exact Tracks.pure _
      | none => exact hT.invalid _ _ _ _
  | .map _ key value =>
      rw [Source.TypeExpr.relocate, resolveType, resolveType]
      exact (tracks_resolveType hT hscope hlinks hf file tparams key).bind fun _ =>
        (tracks_resolveType hT hscope hlinks hf file tparams value).bind fun _ => Tracks.pure _
  | .chan _ dir elem =>
      rw [Source.TypeExpr.relocate, resolveType, resolveType]
      exact (tracks_resolveType hT hscope hlinks hf file tparams elem).bind fun _ => Tracks.pure _
  | .func _ params results =>
      rw [Source.TypeExpr.relocate, resolveType, resolveType]
      exact (tracks_paramTypes hT hscope hlinks hf file tparams params).bind fun _ =>
        (tracks_paramTypes hT hscope hlinks hf file tparams results).bind fun _ => Tracks.pure _
  | .struct _ fields =>
      rw [Source.TypeExpr.relocate, resolveType, resolveType]
      exact (tracks_structFields hT hscope hlinks hf file tparams [] fields).bind
        fun _ => Tracks.pure _
  | .interface _ elems =>
      rw [Source.TypeExpr.relocate, resolveType, resolveType]
      exact tracks_interfaceElems hT hscope hlinks hf file tparams [] [] elems

theorem tracks_paramTypes (hT : T.Lawful) (hscope : Alike sc other)
    (hlinks : TrackedLinks T sc other links links') (hf : Source.KeepsText f) (file : String)
    (tparams : List String) (params : List Source.Param) :
    Tracks T (sc.paramTypes links file tparams params)
      (other.paramTypes links' file tparams (Source.relocateParams f params)) := by
  match params with
  | [] =>
      rw [Source.relocateParams, paramTypes, paramTypes]
      exact Tracks.pure _
  | .plain names type :: rest =>
      rw [Source.relocateParams, paramTypes, paramTypes, List.length_map]
      exact (tracks_resolveType hT hscope hlinks hf file tparams type).bind fun _ =>
        (tracks_paramTypes hT hscope hlinks hf file tparams rest).bind fun _ => Tracks.pure _
  | .variadic _ type :: rest =>
      rw [Source.relocateParams, paramTypes, paramTypes]
      exact (tracks_resolveType hT hscope hlinks hf file tparams type).bind fun _ =>
        (tracks_paramTypes hT hscope hlinks hf file tparams rest).bind fun _ => Tracks.pure _

theorem tracks_structFields (hT : T.Lawful) (hscope : Alike sc other)
    (hlinks : TrackedLinks T sc other links links') (hf : Source.KeepsText f) (file : String)
    (tparams : List String) (fields : List (Field GoType)) (decls : List Source.FieldDecl) :
    Tracks T (sc.structFields links file tparams fields decls)
      (other.structFields links' file tparams fields (Source.relocateFields f decls)) := by
  match decls with
  | [] =>
      rw [Source.relocateFields, structFields, structFields]
      exact Tracks.pure _
  | .named _ names type tag :: rest =>
      rw [Source.relocateFields, structFields, structFields, tagOf_map hf, hscope.path]
      exact (tracks_resolveType hT hscope hlinks hf file tparams type).bind fun _ =>
        (tracks_addFields hT hf _ _ _ _ _ _).bind fun fields =>
          tracks_structFields hT hscope hlinks hf file tparams fields rest
  | .embedded _ star type tag :: rest =>
      rw [Source.relocateFields, structFields, structFields, tagOf_map hf,
        embeddedName_relocate hf, hscope.path]
      exact (tracks_resolveType hT hscope hlinks hf file tparams type).bind fun _ =>
        (tracks_addField hT _ _ _ _ _).bind fun fields =>
          tracks_structFields hT hscope hlinks hf file tparams fields rest

theorem tracks_interfaceElems (hT : T.Lawful) (hscope : Alike sc other)
    (hlinks : TrackedLinks T sc other links links') (hf : Source.KeepsText f) (file : String)
    (tparams : List String) (methods : List (InterfaceMethod GoType)) (embedded : List GoType)
    (elems : List Source.InterfaceElem) :
    Tracks T (sc.interfaceElems links file tparams methods embedded elems)
      (other.interfaceElems links' file tparams methods embedded
        (Source.relocateElems f elems)) := by
  match elems with
  | [] =>
      rw [Source.relocateElems, interfaceElems, interfaceElems]
      exact Tracks.pure _
  | .method x name params results :: rest =>
      rw [Source.relocateElems, interfaceElems, interfaceElems, hf name]
      exact (tracks_paramTypes hT hscope hlinks hf file tparams params).bind fun _ =>
        (tracks_paramTypes hT hscope hlinks hf file tparams results).bind fun _ =>
          (tracks_addMethod hT _ _ _ _ _).bind fun methods =>
            tracks_interfaceElems hT hscope hlinks hf file tparams methods embedded rest
  | .union terms :: rest =>
      rw [Source.relocateElems, interfaceElems, interfaceElems]
      exact (tracks_resolveTypes hT hscope hlinks hf file tparams terms).bind fun types =>
        tracks_interfaceElems hT hscope hlinks hf file tparams methods (embedded ++ types) rest

theorem tracks_resolveTypes (hT : T.Lawful) (hscope : Alike sc other)
    (hlinks : TrackedLinks T sc other links links') (hf : Source.KeepsText f) (file : String)
    (tparams : List String) (types : List Source.TypeExpr) :
    Tracks T (sc.resolveTypes links file tparams types)
      (other.resolveTypes links' file tparams (Source.relocateTypes f types)) := by
  match types with
  | [] =>
      rw [Source.relocateTypes, resolveTypes, resolveTypes]
      exact Tracks.pure _
  | type :: rest =>
      rw [Source.relocateTypes, resolveTypes, resolveTypes]
      exact (tracks_resolveType hT hscope hlinks hf file tparams type).bind fun _ =>
        (tracks_resolveTypes hT hscope hlinks hf file tparams rest).bind fun _ => Tracks.pure _

theorem tracks_eval (hT : T.Lawful) (hscope : Alike sc other)
    (hlinks : TrackedLinks T sc other links links') (hf : Source.KeepsText f) (file : String)
    (iota : Option Nat) (e : Source.Expr) :
    Tracks T (sc.eval links file iota e).run (other.eval links' file iota (e.relocate f)).run := by
  match e with
  | .int x =>
      rw [Source.Expr.relocate, eval, eval, hf x]
      exact tracks_literal _ _ _ _
  | .float x =>
      rw [Source.Expr.relocate, eval, eval, hf x]
      exact tracks_literal _ _ _ _
  | .rune x =>
      rw [Source.Expr.relocate, eval, eval, hf x]
      exact tracks_literal _ _ _ _
  | .string x =>
      rw [Source.Expr.relocate, eval, eval, hf x]
      exact tracks_literal _ _ _ _
  | .bool _ value =>
      rw [Source.Expr.relocate, eval, eval]
      exact Tracks.pure _
  | .iota _ =>
      rw [Source.Expr.relocate]
      cases iota with
      | some n =>
          rw [eval, eval]
          exact Tracks.pure _
      | none =>
          rw [eval, eval]
          exact Tracks.throw _
  | .nil _ =>
      rw [Source.Expr.relocate, eval, eval]
      exact Tracks.throw _
  | .imaginary _ =>
      rw [Source.Expr.relocate, eval, eval]
      exact Tracks.throw _
  | .paren _ inner =>
      rw [Source.Expr.relocate, eval, eval]
      exact tracks_eval hT hscope hlinks hf file iota inner
  | .ident x =>
      rw [Source.Expr.relocate, eval, eval, hf x]
      exact tracks_identConst hscope hlinks file x.text
  | .selector x operand field =>
      rw [Source.Expr.relocate]
      cases operand with
      | ident label =>
          rw [Source.Expr.relocate, eval, eval, hf label, hf field, hscope.qualifiedConst]
          exact Tracks.pure _
      | _ =>
          rw [Source.Expr.relocate, eval.eq_def, eval.eq_def]
          dsimp only
          rw [hf x]
          exact Tracks.throw _
  | .unary _ op operand =>
      rw [Source.Expr.relocate, eval, eval]
      apply (tracks_eval hT hscope hlinks hf file iota operand).except_bind
      intro x
      dsimp only
      cases Constant.unary op x.1 with
      | ok value => exact Tracks.pure _
      | error cause => exact Tracks.throw _
  | .binary _ op left right =>
      rw [Source.Expr.relocate, eval, eval]
      exact (tracks_eval hT hscope hlinks hf file iota left).except_bind fun x =>
        (tracks_eval hT hscope hlinks hf file iota right).except_bind fun y =>
          tracks_combine hT hscope hlinks op x y
  | .call x function [argument] =>
      rw [Source.Expr.relocate, Source.relocateExprs, Source.relocateExprs, eval, eval,
        isLen_relocate hscope hf, hf x]
      split
      · apply (tracks_eval hT hscope hlinks hf file iota argument).except_bind
        intro y
        split
        · exact Tracks.pure _
        · exact Tracks.throw _
      · apply Tracks.lift_bind (tracks_conversionTarget hT hscope hlinks hf file function)
        intro target
        cases target with
        | none => exact Tracks.throw _
        | some type =>
            exact (tracks_eval hT hscope hlinks hf file iota argument).except_bind fun y =>
              tracks_convertTo hT hscope hlinks y.1 type
  | .call x function [] =>
      rw [Source.Expr.relocate, Source.relocateExprs, eval.eq_def, eval.eq_def]
      dsimp only
      rw [hf x]
      exact Tracks.throw _
  | .call x function (_ :: _ :: _) =>
      rw [Source.Expr.relocate, Source.relocateExprs, Source.relocateExprs, eval.eq_def,
        eval.eq_def]
      dsimp only
      rw [hf x]
      exact Tracks.throw _
  | .conversion _ type operand =>
      rw [Source.Expr.relocate, eval, eval]
      apply Tracks.lift_bind (tracks_resolveType hT hscope hlinks hf file [] type)
      intro target
      exact (tracks_eval hT hscope hlinks hf file iota operand).except_bind fun x =>
        tracks_convertTo hT hscope hlinks x.1 target
  | .other x =>
      rw [Source.Expr.relocate, eval, eval, hf x]
      exact Tracks.throw _

end

end Expressions

/-!
# Declarations
-/

def aliasBody (s : Scope) (links : Links) (d : TypeDecl) : Resolve GoType :=
  s.resolveType links d.file d.spec.params d.spec.type

def typeBody (s : Scope) (links : Links) (d : TypeDecl) : Resolve GoType := do
  s.underlying links (← s.aliasBody links d)

def constBody (s : Scope) (links : Links) (d : ConstDecl) : Resolve (Option Valued) :=
  match d.expr with
  | none => pure none
  | some expr => do
      match ← (s.declaredValue links d expr).run with
      | .ok value => pure (some value)
      | .error cause => do
          Resolve.complain d.file d.spec.line (.invalidConstant d.name cause)
          pure none

section Declarations

variable {T : Tracking} {sc other : Scope} {links links' : Links}
  {f : Source.Extent -> Source.Extent}

theorem tracks_aliasBody (hT : T.Lawful) (hscope : Alike sc other)
    (hlinks : TrackedLinks T sc other links links') (hf : Source.KeepsText f) (d : TypeDecl) :
    Tracks T (sc.aliasBody links d) (other.aliasBody links' (d.relocate f)) :=
  tracks_resolveType hT hscope hlinks hf d.file d.spec.params d.spec.type

theorem tracks_typeBody (hT : T.Lawful) (hscope : Alike sc other)
    (hlinks : TrackedLinks T sc other links links') (hf : Source.KeepsText f) (d : TypeDecl) :
    Tracks T (sc.typeBody links d) (other.typeBody links' (d.relocate f)) :=
  (tracks_aliasBody hT hscope hlinks hf d).bind fun type =>
    tracks_underlying hT hscope hlinks type

theorem tracks_declaredValue (hT : T.Lawful) (hscope : Alike sc other)
    (hlinks : TrackedLinks T sc other links links') (hf : Source.KeepsText f) (d : ConstDecl)
    (expr : Source.Expr) :
    Tracks T (sc.declaredValue links d expr).run
      (other.declaredValue links' (d.relocate f) (expr.relocate f)).run := by
  unfold declaredValue
  apply (tracks_eval hT hscope hlinks hf d.file (some d.iota) expr).except_bind
  intro value
  unfold ConstDecl.relocate
  cases d.type with
  | none => exact Tracks.pure _
  | some type =>
      exact Tracks.lift_bind (tracks_resolveType hT hscope hlinks hf d.file [] type) fun target =>
        tracks_assign hT hscope hlinks value target

theorem tracks_constBody (hT : T.Lawful) (hscope : Alike sc other)
    (hlinks : TrackedLinks T sc other links links') (hf : Source.KeepsText f) (d : ConstDecl)
    (spec : Source.Extent) :
    Tracks T (sc.constBody links d)
      (other.constBody links' { d.relocate f with spec := spec }) := by
  have hexpr : (d.relocate f).expr = d.expr.map (Source.Expr.relocate f) := rfl
  unfold constBody
  dsimp only
  rw [hexpr]
  cases d.expr with
  | none => exact Tracks.pure _
  | some expr =>
      apply (tracks_declaredValue hT hscope hlinks hf d expr).bind
      intro result
      cases result with
      | ok value => exact Tracks.pure _
      | error cause => exact (hT.complain _ _ _ _).bind fun _ => Tracks.pure _

end Declarations

end Scope
end GoAtlas
