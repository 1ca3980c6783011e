import GoAtlas.Proofs.Check.Trails

/-!
# Trails of expressions

Two scopes that share what an expression spells resolve and evaluate it along one trail.  Names
are where the trail meets the imports of the scopes; the rest goes from the parts of an expression
to the whole.
-/

namespace GoAtlas

open Source (Spelling typeSpelled typesSpelled paramsSpelled fieldsSpelled elemsSpelled exprSpelled
  targetSpelled)

namespace Scope

/-!
# Names and conversions
-/

section Names

variable {sc other : Scope} {known : String -> String -> Prop} {Fault : Complaint -> Prop}
  {spelled : String -> Spelling -> Prop}

theorem trail_namedType (h : Setting sc other known Fault spelled) (file : String)
    (tparams : List String) (x : Source.Extent) :
    Trail sc other known Fault (fun links => sc.namedType links file tparams x)
      (fun links => other.namedType links file tparams x) fun type => type.Within True known := by
  unfold namedType
  dsimp only
  rw [h.shares.path, h.shares.types, h.shares.isConst, h.shares.others, h.shares.dotType]
  split
  · exact Trail.pure _ (GoType.within_builtin _)
  · split
    · split
      · exact Trail.aliased _
      · exact Trail.pure _ (GoType.within_declared_iff.mpr (h.supplies.own _))
    · split
      · exact Trail.invalid _ _ (h.fault _ rfl)
      · split
        · next htype => exact Trail.pure _ (within_predeclared htype)
        · split
          · next htype => exact Trail.pure _ (h.supplies.dotType _ _ _ htype)
          · exact Trail.invalid _ _ (h.fault _ rfl)

theorem trail_qualifiedType (h : Setting sc other known Fault spelled) (file : String)
    (label name : Source.Extent) :
    Trail sc other known Fault (fun _ => sc.qualifiedType file label name)
      (fun _ => other.qualifiedType file label name) fun type => type.Within True known := by
  rw [h.shares.qualifiedType]
  unfold qualifiedType
  split
  · exact Trail.invalid _ _ (h.fault _ rfl)
  · next b hb =>
      split
      · split
        · exact Trail.pure _ (GoType.within_basic (by decide))
        · exact Trail.invalid _ _ (h.fault _ rfl)
      · split
        · exact Trail.pure _ (GoType.within_invalid_iff.mpr trivial)
        · next package hpackage =>
            split
            · exact Trail.invalid _ _ (h.fault _ rfl)
            · next hexported =>
                have hexported : isExported name.text = true := by simpa using hexported
                split
                · next hsealed =>
                    exact Trail.pure _ (GoType.within_declared_iff.mpr
                      (h.supplies.opaqueType _ _ _ _ _ hb hpackage hexported hsealed))
                · split
                  · next d hd =>
                      exact Trail.pure _
                        (h.supplies.importedType _ _ _ _ _ _ hb hpackage hexported hd)
                  · exact Trail.invalid _ _ (h.fault _ rfl)

theorem trail_convertTo (value : Constant) {target : GoType} (h : target.Within True known) :
    Trail.Evaluated sc other known Fault (fun links => sc.convertTo links value target)
      (fun links => other.convertTo links value target) fun x => x.2.Within True known := by
  unfold convertTo
  split
  · exact Trail.value _ h
  · refine Trail.Evaluated.bind (Trail.lift (Trail.behind h)) ?_
    intro type _
    split
    · exact Trail.value _ h
    · split
      · exact Trail.value _ h
      · exact Trail.throw _
    · exact Trail.throw _

theorem trail_assign (x : Valued) {target : GoType} (h : target.Within True known) :
    Trail.Evaluated sc other known Fault (fun links => sc.assign links x target)
      (fun links => other.assign links x target) fun x => x.2.Within True known := by
  unfold assign
  dsimp only
  split
  · exact Trail.throw _
  · exact trail_convertTo x.1 h

theorem trail_literal (what text : String) {kind : BasicKind} (value : Option Constant)
    (hkind : kind ≠ .invalid) :
    Trail.Evaluated sc other known Fault (fun _ => literal what text kind value)
      (fun _ => literal what text kind value) fun x => x.2.Within True known := by
  unfold literal
  split
  · exact Trail.value _ (GoType.within_basic hkind)
  · exact Trail.throw _

theorem trail_combine (op : BinaryOp) {x y : Valued} (hx : x.2.Within True known)
    (hy : y.2.Within True known) :
    Trail.Evaluated sc other known Fault (fun links => sc.combine links op x y)
      (fun links => other.combine links op x y) fun x => x.2.Within True known := by
  unfold combine
  dsimp only
  split
  · exact Trail.throw _
  · next value _ =>
      split
      · exact Trail.value _ (GoType.within_basic (by decide))
      · split
        · split
          · exact Trail.value _ hx
          · exact trail_convertTo value hx
        · split
          · next k l hk hl =>
              have hk := (Option.filter_eq_some_iff.mp hk).2
              have hl := (Option.filter_eq_some_iff.mp hl).2
              exact Trail.value _ (GoType.within_basic (untypedResult_ne_invalid value hk hl))
          · exact trail_convertTo value hy
          · exact trail_convertTo value hx
          · split
            · exact trail_convertTo value hx
            · exact Trail.throw _

theorem trail_identConst (h : Setting sc other known Fault spelled) (file name : String)
    (hspelled : spelled file (.plain name)) :
    Trail.Evaluated sc other known Fault (fun links => sc.identConst links file name)
      (fun links => other.identConst links file name) fun x => x.2.Within True known := by
  unfold identConst
  rw [h.shares.constIndex]
  split
  · next i hi =>
      have hlength := (List.findIdx?_eq_some_iff_getElem.mp hi).1
      refine Trail.Evaluated.bind (Trail.lift (Trail.const hlength)) ?_
      intro value hvalue
      cases value with
      | some x => exact Trail.value _ (hvalue x rfl)
      | none => exact Trail.throw _
  · next hnone =>
      rw [h.shares.dotConst file name hnone hspelled]
      split
      · next x hx => exact Trail.value _ (h.supplies.dotConst file name x hnone hspelled hx)
      · exact Trail.throw _

theorem trail_identTarget (h : Setting sc other known Fault spelled) (file : String)
    (x : Source.Extent) :
    Trail sc other known Fault (fun links => sc.identTarget links file x)
      (fun links => other.identTarget links file x)
      fun target => forall type, target = some type -> type.Within True known := by
  unfold identTarget
  rw [h.shares.types, h.shares.isConst, h.shares.others, h.shares.dotType]
  split
  · refine (trail_namedType h file [] x).bind ?_
    intro type htype
    refine Trail.pure _ ?_
    intro target htarget
    cases htarget
    exact htype
  · split
    · refine Trail.pure _ ?_
      intro target htarget
      cases htarget
    · split
      · next type htype =>
          refine Trail.pure _ ?_
          intro target htarget
          cases htarget
          exact within_predeclared htype
      · exact Trail.pure _ fun type htype => h.supplies.dotType file x.text type htype

theorem trail_conversionTarget (h : Setting sc other known Fault spelled) (file : String)
    (function : Source.Expr)
    (hspelled : forall s, s ∈ targetSpelled function -> spelled file s) :
    Trail sc other known Fault (fun links => sc.conversionTarget links file function)
      (fun links => other.conversionTarget links file function)
      fun target => forall type, target = some type -> type.Within True known := by
  match function with
  | .ident x => exact trail_identTarget h file x
  | .selector _ operand field =>
      have hfield := hspelled _ List.mem_cons_self
      simp only [conversionTarget, h.shares.qualifiedTarget _ _ _ hfield]
      exact Trail.pure _ fun type htype => h.supplies.qualifiedTarget _ _ _ type hfield htype
  | .paren _ inner => exact trail_conversionTarget h file inner hspelled
  | .int _ | .float _ | .imaginary _ | .rune _ | .string _ | .bool _ _ | .iota _ | .nil _
  | .unary _ _ _ | .binary _ _ _ _ | .call _ _ _ | .conversion _ _ _ | .other _ =>
      refine Trail.pure none ?_
      intro target htarget
      cases htarget

end Names

/-!
# Fields and methods
-/

section Fields

variable {sc other : Scope} {known : String -> String -> Prop} {Fault : Complaint -> Prop}

def KnownFields (known : String -> String -> Prop) (fields : List (Field GoType)) : Prop :=
  forall f, f ∈ fields -> f.type.Within True known

def KnownMethods (known : String -> String -> Prop) (methods : List (InterfaceMethod GoType)) :
    Prop :=
  forall m, m ∈ methods -> m.signature.Within True known

def KnownTypes (known : String -> String -> Prop) (types : List GoType) : Prop :=
  forall type, type ∈ types -> type.Within True known

theorem trail_addField (hfault : forall complaint, complaint.isOfBody = true -> Fault complaint)
    (file : String) (line : Nat) {fields : List (Field GoType)} {f : Field GoType}
    (hfields : KnownFields known fields) (hf : f.type.Within True known) :
    Trail sc other known Fault (fun _ => addField file line fields f)
      (fun _ => addField file line fields f) (KnownFields known) := by
  unfold addField
  split
  · exact (Trail.complain file line (hfault _ rfl)).bind fun _ _ => Trail.pure _ hfields
  · refine Trail.pure _ ?_
    intro g hg
    rcases List.mem_append.mp hg with hold | hnew
    · exact hfields g hold
    · rw [List.mem_singleton.mp hnew]
      exact hf

theorem trail_addFields (hfault : forall complaint, complaint.isOfBody = true -> Fault complaint)
    (file : String) {type : GoType} (tag : Option String) (package : String)
    (names : List Source.Extent) {fields : List (Field GoType)}
    (hfields : KnownFields known fields) (htype : type.Within True known) :
    Trail sc other known Fault (fun _ => addFields file type tag package fields names)
      (fun _ => addFields file type tag package fields names) (KnownFields known) := by
  induction names generalizing fields with
  | nil => exact Trail.pure _ hfields
  | cons x names ih =>
      unfold addFields
      exact (trail_addField hfault file x.line hfields htype).bind fun _ hfields => ih hfields

theorem trail_addMethod (hfault : forall complaint, complaint.isOfBody = true -> Fault complaint)
    (file : String) (line : Nat) {methods : List (InterfaceMethod GoType)}
    {m : InterfaceMethod GoType} (hmethods : KnownMethods known methods)
    (hm : m.signature.Within True known) :
    Trail sc other known Fault (fun _ => addMethod file line methods m)
      (fun _ => addMethod file line methods m) (KnownMethods known) := by
  unfold addMethod
  split
  · exact (Trail.complain file line (hfault _ rfl)).bind fun _ _ => Trail.pure _ hmethods
  · refine Trail.pure _ ?_
    intro n hn
    rcases List.mem_append.mp hn with hold | hnew
    · exact hmethods n hold
    · rw [List.mem_singleton.mp hnew]
      exact hm

end Fields

/-!
# Expressions of both kinds

The proofs follow the recursion of the definitions, one case for each form of an expression.
-/

section Expressions

variable {sc other : Scope} {known : String -> String -> Prop} {Fault : Complaint -> Prop}
  {spelled : String -> Spelling -> Prop}

mutual

theorem trail_resolveType (h : Setting sc other known Fault spelled) (file : String)
    (tparams : List String) (e : Source.TypeExpr)
    (hspelled : forall s, s ∈ typeSpelled e -> spelled file s) :
    Trail sc other known Fault (fun links => sc.resolveType links file tparams e)
      (fun links => other.resolveType links file tparams e)
      fun type => type.Within True known := by
  match e with
  | .name x =>
      simp only [resolveType]
      exact trail_namedType h file tparams x
  | .qualified _ package name =>
      simp only [resolveType]
      exact trail_qualifiedType h file package name
  | .generic _ base _ =>
      rw [typeSpelled] at hspelled
      simp only [resolveType]
      exact trail_resolveType h file tparams base hspelled
  | .paren _ inner =>
      rw [typeSpelled] at hspelled
      simp only [resolveType]
      exact trail_resolveType h file tparams inner hspelled
  | .negated _ inner =>
      rw [typeSpelled] at hspelled
      simp only [resolveType]
      exact trail_resolveType h file tparams inner hspelled
  | .pointer _ elem =>
      rw [typeSpelled] at hspelled
      simp only [resolveType]
      refine (trail_resolveType h file tparams elem hspelled).bind fun elem helem => ?_
      exact Trail.pure _ (GoType.within_pointer_iff.mpr helem)
  | .slice _ elem =>
      rw [typeSpelled] at hspelled
      simp only [resolveType]
      refine (trail_resolveType h file tparams elem hspelled).bind fun elem helem => ?_
      exact Trail.pure _ (GoType.within_slice_iff.mpr helem)
  | .array _ len elem =>
      rw [typeSpelled, List.forall_mem_append] at hspelled
      simp only [resolveType]
      refine (trail_resolveType h file tparams elem hspelled.1).bind fun elem helem => ?_
      refine Trail.bind (trail_eval h file none len hspelled.2) fun value _ => ?_
      split
      · exact Trail.pure _ (GoType.within_array_iff.mpr helem)
      · exact Trail.invalid _ _ (h.fault _ rfl)
  | .map _ key value =>
      rw [typeSpelled, List.forall_mem_append] at hspelled
      simp only [resolveType]
      refine (trail_resolveType h file tparams key hspelled.1).bind fun key hkey => ?_
      refine (trail_resolveType h file tparams value hspelled.2).bind fun value hvalue => ?_
      exact Trail.pure _ (GoType.within_map_iff.mpr ⟨hkey, hvalue⟩)
  | .chan _ dir elem =>
      rw [typeSpelled] at hspelled
      simp only [resolveType]
      refine (trail_resolveType h file tparams elem hspelled).bind fun elem helem => ?_
      exact Trail.pure _ (GoType.within_chan_iff.mpr helem)
  | .func _ params results =>
      rw [typeSpelled, List.forall_mem_append] at hspelled
      simp only [resolveType]
      refine (trail_paramTypes h file tparams params hspelled.1).bind fun params hparams => ?_
      refine (trail_paramTypes h file tparams results hspelled.2).bind fun results hresults => ?_
      exact Trail.pure _ (GoType.within_func_iff.mpr (GoType.within_signature hparams hresults))
  | .struct _ fields =>
      rw [typeSpelled] at hspelled
      simp only [resolveType]
      refine (trail_structFields h file tparams [] fields hspelled
        (List.forall_mem_nil _)).bind fun fields hfields => ?_
      exact Trail.pure _ (GoType.within_struct_iff.mpr hfields)
  | .interface _ elems =>
      rw [typeSpelled] at hspelled
      simp only [resolveType]
      exact trail_interfaceElems h file tparams [] [] elems hspelled (List.forall_mem_nil _)
        (List.forall_mem_nil _)

theorem trail_paramTypes (h : Setting sc other known Fault spelled) (file : String)
    (tparams : List String) (params : List Source.Param)
    (hspelled : forall s, s ∈ paramsSpelled params -> spelled file s) :
    Trail sc other known Fault (fun links => sc.paramTypes links file tparams params)
      (fun links => other.paramTypes links file tparams params)
      fun types => KnownTypes known types.1 := by
  match params with
  | [] =>
      simp only [paramTypes]
      exact Trail.pure _ (List.forall_mem_nil _)
  | .plain names type :: rest =>
      rw [paramsSpelled, List.forall_mem_append] at hspelled
      simp only [paramTypes]
      refine (trail_resolveType h file tparams type hspelled.1).bind fun type htype => ?_
      refine (trail_paramTypes h file tparams rest hspelled.2).bind fun types htypes => ?_
      refine Trail.pure _ ?_
      intro t ht
      rcases List.mem_append.mp ht with hnew | hrest
      · rw [(List.mem_replicate.mp hnew).2]
        exact htype
      · exact htypes t hrest
  | .variadic _ type :: rest =>
      rw [paramsSpelled, List.forall_mem_append] at hspelled
      simp only [paramTypes]
      refine (trail_resolveType h file tparams type hspelled.1).bind fun type htype => ?_
      refine (trail_paramTypes h file tparams rest hspelled.2).bind fun types htypes => ?_
      exact Trail.pure _ (List.forall_mem_cons.mpr
        ⟨GoType.within_slice_iff.mpr htype, htypes⟩)

theorem trail_structFields (h : Setting sc other known Fault spelled) (file : String)
    (tparams : List String) (fields : List (Field GoType)) (decls : List Source.FieldDecl)
    (hspelled : forall s, s ∈ fieldsSpelled decls -> spelled file s)
    (hfields : KnownFields known fields) :
    Trail sc other known Fault (fun links => sc.structFields links file tparams fields decls)
      (fun links => other.structFields links file tparams fields decls) (KnownFields known) := by
  match decls with
  | [] =>
      simp only [structFields]
      exact Trail.pure _ hfields
  | .named _ names type tag :: rest =>
      rw [fieldsSpelled, List.forall_mem_append] at hspelled
      simp only [structFields, h.shares.path]
      refine (trail_resolveType h file tparams type hspelled.1).bind fun type htype => ?_
      refine (trail_addFields h.fault file _ _ names hfields htype).bind fun fields hfields => ?_
      exact trail_structFields h file tparams fields rest hspelled.2 hfields
  | .embedded _ star type tag :: rest =>
      rw [fieldsSpelled, List.forall_mem_append] at hspelled
      simp only [structFields, h.shares.path]
      refine (trail_resolveType h file tparams type hspelled.1).bind fun base hbase => ?_
      have hfield : (if star then GoType.pointer base else base).Within True known := by
        split
        · exact GoType.within_pointer_iff.mpr hbase
        · exact hbase
      refine (trail_addField h.fault file _ hfields hfield).bind fun fields hfields => ?_
      exact trail_structFields h file tparams fields rest hspelled.2 hfields

theorem trail_interfaceElems (h : Setting sc other known Fault spelled) (file : String)
    (tparams : List String) (methods : List (InterfaceMethod GoType)) (embedded : List GoType)
    (elems : List Source.InterfaceElem)
    (hspelled : forall s, s ∈ elemsSpelled elems -> spelled file s)
    (hmethods : KnownMethods known methods) (hembedded : KnownTypes known embedded) :
    Trail sc other known Fault
      (fun links => sc.interfaceElems links file tparams methods embedded elems)
      (fun links => other.interfaceElems links file tparams methods embedded elems)
      fun type => type.Within True known := by
  match elems with
  | [] =>
      simp only [interfaceElems]
      exact Trail.pure _ (GoType.within_interface hmethods hembedded)
  | .method x name params results :: rest =>
      rw [elemsSpelled, List.forall_mem_append, List.forall_mem_append] at hspelled
      simp only [interfaceElems]
      refine (trail_paramTypes h file tparams params hspelled.1.1).bind fun params hparams => ?_
      refine (trail_paramTypes h file tparams results hspelled.1.2).bind fun results hresults => ?_
      have hsignature : Signature.Within True known ⟨params.1, results.1, params.2⟩ :=
        GoType.within_signature hparams hresults
      refine (trail_addMethod h.fault file x.line hmethods hsignature).bind
        fun methods hmethods => ?_
      exact trail_interfaceElems h file tparams methods embedded rest hspelled.2 hmethods hembedded
  | .union terms :: rest =>
      rw [elemsSpelled, List.forall_mem_append] at hspelled
      simp only [interfaceElems]
      refine (trail_resolveTypes h file tparams terms hspelled.1).bind fun types htypes => ?_
      exact trail_interfaceElems h file tparams methods (embedded ++ types) rest hspelled.2 hmethods
        (List.forall_mem_append.mpr ⟨hembedded, htypes⟩)

theorem trail_resolveTypes (h : Setting sc other known Fault spelled) (file : String)
    (tparams : List String) (types : List Source.TypeExpr)
    (hspelled : forall s, s ∈ typesSpelled types -> spelled file s) :
    Trail sc other known Fault (fun links => sc.resolveTypes links file tparams types)
      (fun links => other.resolveTypes links file tparams types) (KnownTypes known) := by
  match types with
  | [] =>
      simp only [resolveTypes]
      exact Trail.pure _ (List.forall_mem_nil _)
  | type :: rest =>
      rw [typesSpelled, List.forall_mem_append] at hspelled
      simp only [resolveTypes]
      refine (trail_resolveType h file tparams type hspelled.1).bind fun type htype => ?_
      refine (trail_resolveTypes h file tparams rest hspelled.2).bind fun types htypes => ?_
      exact Trail.pure _ (List.forall_mem_cons.mpr ⟨htype, htypes⟩)

theorem trail_eval (h : Setting sc other known Fault spelled) (file : String)
    (iota : Option Nat) (e : Source.Expr)
    (hspelled : forall s, s ∈ exprSpelled e -> spelled file s) :
    Trail.Evaluated sc other known Fault (fun links => sc.eval links file iota e)
      (fun links => other.eval links file iota e) fun x => x.2.Within True known := by
  match e with
  | .int x =>
      simp only [eval]
      exact trail_literal _ _ _ (by decide)
  | .float x =>
      simp only [eval]
      exact trail_literal _ _ _ (by decide)
  | .rune x =>
      simp only [eval]
      exact trail_literal _ _ _ (by decide)
  | .string x =>
      simp only [eval]
      exact trail_literal _ _ _ (by decide)
  | .bool _ value =>
      simp only [eval]
      exact Trail.value _ (GoType.within_basic (by decide))
  | .iota _ =>
      cases iota with
      | some n =>
          simp only [eval]
          exact Trail.value _ (GoType.within_basic (by decide))
      | none =>
          simp only [eval]
          exact Trail.throw _
  | .nil _ =>
      simp only [eval]
      exact Trail.throw _
  | .imaginary _ =>
      simp only [eval]
      exact Trail.throw _
  | .paren _ inner =>
      rw [exprSpelled] at hspelled
      simp only [eval]
      exact trail_eval h file iota inner hspelled
  | .ident x =>
      rw [exprSpelled] at hspelled
      simp only [eval]
      exact trail_identConst h file x.text (hspelled _ List.mem_cons_self)
  | .selector x operand field =>
      cases operand with
      | ident label =>
          rw [exprSpelled] at hspelled
          have hfield := hspelled _ List.mem_cons_self
          simp only [eval, h.shares.qualifiedConst _ _ _ hfield]
          exact Trail.pure _ fun y hy => h.supplies.qualifiedConst _ _ _ y hfield hy
      | _ =>
          simp only [eval]
          exact Trail.throw _
  | .unary _ op operand =>
      rw [exprSpelled] at hspelled
      simp only [eval]
      refine (trail_eval h file iota operand hspelled).bind fun x hx => ?_
      split
      · exact Trail.value _ hx
      · exact Trail.throw _
  | .binary _ op left right =>
      rw [exprSpelled, List.forall_mem_append] at hspelled
      simp only [eval]
      refine (trail_eval h file iota left hspelled.1).bind fun x hx => ?_
      refine (trail_eval h file iota right hspelled.2).bind fun y hy => ?_
      exact trail_combine op hx hy
  | .call x function [argument] =>
      rw [exprSpelled, List.forall_mem_append] at hspelled
      simp only [eval, h.shares.isLen]
      split
      · refine (trail_eval h file iota argument hspelled.2).bind fun y _ => ?_
        split
        · exact Trail.value _ (GoType.within_basic (by decide))
        · exact Trail.throw _
      · refine Trail.Evaluated.bind
          (Trail.lift (trail_conversionTarget h file function hspelled.1)) fun target htarget => ?_
        cases target with
        | none => exact Trail.throw _
        | some type =>
            refine (trail_eval h file iota argument hspelled.2).bind fun y _ => ?_
            exact trail_convertTo y.1 (htarget type rfl)
  | .call x function [] =>
      simp only [eval]
      exact Trail.throw _
  | .call x function (_ :: _ :: _) =>
      simp only [eval]
      exact Trail.throw _
  | .conversion _ type operand =>
      rw [exprSpelled, List.forall_mem_append] at hspelled
      simp only [eval]
      refine Trail.Evaluated.bind
        (Trail.lift (trail_resolveType h file [] type hspelled.1)) fun target htarget => ?_
      refine (trail_eval h file iota operand hspelled.2).bind fun x _ => ?_
      exact trail_convertTo x.1 htarget
  | .other x =>
      simp only [eval]
      exact Trail.throw _

end

end Expressions

end Scope
end GoAtlas
