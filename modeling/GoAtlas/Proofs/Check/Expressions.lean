import GoAtlas.Proofs.Check.Names

/-!
# Types and values of expressions

Every type that an expression of either kind leads to is fine, whatever else goes wrong.
-/

namespace GoAtlas

namespace BasicKind

theorem ne_invalid_of_isUntyped {kind : BasicKind} (h : kind.isUntyped = true) :
    kind ≠ invalid := by
  intro heq
  rw [heq] at h
  cases h

end BasicKind

namespace Scope

variable {sc : Scope} {importer : Session.LocalImporter} {links : Links} {w : Place Progress}

/-!
# Conversions
-/

theorem evaluates_convertTo (himporter : Session.Answering importer)
    (hlinks : sc.Follows importer links) (value : Constant) {target : GoType}
    (htarget : sc.Fine w target) :
    Evaluates (sc.course importer) (sc.convertTo links value target) w
      fun x v => sc.Fine v x.2 := by
  unfold convertTo
  split
  · exact Evaluates.pure htarget
  · refine Evaluates.bind (Evaluates.lift (yields_underlying himporter hlinks htarget)) ?_
    intro type v hwv _
    split
    · exact Evaluates.pure (htarget.leads hwv)
    · split
      · exact Evaluates.pure (htarget.leads hwv)
      · exact Evaluates.throw
    · exact Evaluates.throw

theorem evaluates_assign (himporter : Session.Answering importer)
    (hlinks : sc.Follows importer links) (x : Valued) {target : GoType}
    (htarget : sc.Fine w target) :
    Evaluates (sc.course importer) (sc.assign links x target) w fun x v => sc.Fine v x.2 := by
  unfold assign
  dsimp only
  split
  · exact Evaluates.throw
  · exact evaluates_convertTo himporter hlinks x.1 htarget

theorem evaluates_literal (what text : String) {kind : BasicKind} (value : Option Constant)
    (hkind : kind ≠ .invalid) :
    Evaluates (sc.course importer) (literal what text kind value) w
      fun x v => sc.Fine v x.2 := by
  unfold literal
  split
  · exact Evaluates.pure (GoType.within_basic hkind)
  · exact Evaluates.throw

theorem untypedResult_ne_invalid (value : Constant) {a b : BasicKind}
    (ha : a.isUntyped = true) (hb : b.isUntyped = true) :
    untypedResult value a b ≠ .invalid := by
  have hcombine : a.combine b ≠ .invalid := by
    unfold BasicKind.combine
    split
    · exact BasicKind.ne_invalid_of_isUntyped ha
    · exact BasicKind.ne_invalid_of_isUntyped hb
  unfold untypedResult
  dsimp only
  split
  · split
    · decide
    · exact hcombine
  · exact hcombine

theorem evaluates_combine (himporter : Session.Answering importer)
    (hlinks : sc.Follows importer links) (op : BinaryOp) {x y : Valued}
    (hx : sc.Fine w x.2) (hy : sc.Fine w y.2) :
    Evaluates (sc.course importer) (sc.combine links op x y) w fun x v => sc.Fine v x.2 := by
  unfold combine
  dsimp only
  split
  · exact Evaluates.throw
  · next value _ =>
      split
      · exact Evaluates.pure (GoType.within_basic (by decide))
      · split
        · split
          · exact Evaluates.pure hx
          · exact evaluates_convertTo himporter hlinks value hx
        · split
          · next k l hk hl =>
              have hk := (Option.filter_eq_some_iff.mp hk).2
              have hl := (Option.filter_eq_some_iff.mp hl).2
              exact Evaluates.pure (GoType.within_basic (untypedResult_ne_invalid value hk hl))
          · exact evaluates_convertTo himporter hlinks value hy
          · exact evaluates_convertTo himporter hlinks value hx
          · split
            · exact evaluates_convertTo himporter hlinks value hx
            · exact Evaluates.throw

/-!
# Names in expressions
-/

theorem evaluates_identConst (hlinks : sc.Follows importer links) (file name : String) :
    Evaluates (sc.course importer) (sc.identConst links file name) w
      fun x v => sc.Fine v x.2 := by
  unfold identConst
  split
  · next i _ =>
      refine Evaluates.bind (Evaluates.lift (hlinks.const i w)) ?_
      intro value v _ hvalue
      cases value with
      | some x => exact Evaluates.pure (hvalue x rfl)
      | none => exact Evaluates.throw
  · split
    · next x hx =>
        refine Yields.of_holds fun hw => ?_
        exact Evaluates.pure (hw.fine_dotConst hx)
    · exact Evaluates.throw

theorem yields_identTarget (hlinks : sc.Follows importer links) (file : String)
    (x : Source.Extent) :
    Yields (sc.course importer) (sc.identTarget links file x) w
      fun target v => forall type, target = some type -> sc.Fine v type := by
  unfold identTarget
  split
  · apply (yields_namedType hlinks file [] x).bind
    intro type v _ htype
    apply Yields.pure
    intro target htarget
    cases htarget
    exact htype
  · split
    · apply Yields.pure
      intro target htarget
      cases htarget
    · split
      · next type htype =>
          apply Yields.pure
          intro target htarget
          cases htarget
          exact fine_predeclared htype
      · refine Yields.of_holds fun hw => Yields.pure ?_
        intro target htarget
        exact hw.fine_dotType htarget

theorem yields_conversionTarget (hlinks : sc.Follows importer links) (file : String)
    (function : Source.Expr) :
    Yields (sc.course importer) (sc.conversionTarget links file function) w
      fun target v => forall type, target = some type -> sc.Fine v type := by
  fun_induction conversionTarget sc links file function with
  | case1 x => exact yields_identTarget hlinks file x
  | case2 _ operand field =>
      refine Yields.of_holds fun hw => Yields.pure ?_
      intro target htarget
      exact hw.fine_qualifiedTarget htarget
  | case3 _ inner ih => exact ih
  | case4 =>
      apply Yields.pure
      intro target htarget
      cases htarget

/-!
# Fields and methods
-/

def FineFields (sc : Scope) (w : Place Progress) (fields : List (Field GoType)) : Prop :=
  forall f, f ∈ fields -> sc.Fine w f.type

def FineMethods (sc : Scope) (w : Place Progress)
    (methods : List (InterfaceMethod GoType)) : Prop :=
  forall m, m ∈ methods -> sc.Fine w (.func m.signature)

def FineTypes (sc : Scope) (w : Place Progress) (types : List GoType) : Prop :=
  forall type, type ∈ types -> sc.Fine w type

theorem FineFields.leads {v : Place Progress} {fields : List (Field GoType)}
    (h : sc.FineFields w fields) (hleads : (sc.course importer).Leads w v) :
    sc.FineFields v fields :=
  fun f hf => (h f hf).leads hleads

theorem FineMethods.leads {v : Place Progress} {methods : List (InterfaceMethod GoType)}
    (h : sc.FineMethods w methods) (hleads : (sc.course importer).Leads w v) :
    sc.FineMethods v methods :=
  fun m hm => (h m hm).leads hleads

theorem FineTypes.leads {v : Place Progress} {types : List GoType} (h : sc.FineTypes w types)
    (hleads : (sc.course importer).Leads w v) : sc.FineTypes v types :=
  fun type htype => (h type htype).leads hleads

theorem fine_func {params results : List GoType} {variadic : Bool}
    (hparams : sc.FineTypes w params) (hresults : sc.FineTypes w results) :
    sc.Fine w (.func ⟨params, results, variadic⟩) :=
  GoType.within_func_iff.mpr (GoType.within_signature hparams hresults)

theorem yields_addField (file : String) (line : Nat) {fields : List (Field GoType)}
    {f : Field GoType} (hfields : sc.FineFields w fields) (hf : sc.Fine w f.type) :
    Yields (sc.course importer) (addField file line fields f) w
      fun fields v => sc.FineFields v fields := by
  unfold addField
  split
  · apply (yields_complain file line _).bind
    intro _ v hwv _
    exact Yields.pure (hfields.leads hwv)
  · apply Yields.pure
    intro g hg
    rcases List.mem_append.mp hg with hold | hnew
    · exact hfields g hold
    · rw [List.mem_singleton.mp hnew]
      exact hf

theorem yields_addFields (file : String) {type : GoType} (tag : Option String)
    (package : String) {fields : List (Field GoType)} (names : List Source.Extent)
    (hfields : sc.FineFields w fields) (htype : sc.Fine w type) :
    Yields (sc.course importer) (addFields file type tag package fields names) w
      fun fields v => sc.FineFields v fields := by
  induction names generalizing fields w with
  | nil => exact Yields.pure hfields
  | cons x names ih =>
      unfold addFields
      apply (yields_addField file x.line hfields htype).bind
      intro fields' v hwv hfields'
      exact ih hfields' (htype.leads hwv)

theorem yields_addMethod (file : String) (line : Nat)
    {methods : List (InterfaceMethod GoType)} {m : InterfaceMethod GoType}
    (hmethods : sc.FineMethods w methods) (hm : sc.Fine w (.func m.signature)) :
    Yields (sc.course importer) (addMethod file line methods m) w
      fun methods v => sc.FineMethods v methods := by
  unfold addMethod
  split
  · apply (yields_complain file line _).bind
    intro _ v hwv _
    exact Yields.pure (hmethods.leads hwv)
  · apply Yields.pure
    intro n hn
    rcases List.mem_append.mp hn with hold | hnew
    · exact hmethods n hold
    · rw [List.mem_singleton.mp hnew]
      exact hm

/-!
# Expressions of both kinds

The proofs follow the recursion of the definitions, one case for each form of an expression.
-/

mutual

theorem yields_resolveType (himporter : Session.Answering importer)
    (hlinks : sc.Follows importer links) (file : String) (tparams : List String)
    (e : Source.TypeExpr) (w : Place Progress) :
    Yields (sc.course importer) (sc.resolveType links file tparams e) w
      fun type v => sc.Fine v type := by
  match e with
  | .name x =>
      rw [resolveType]
      exact yields_namedType hlinks file tparams x
  | .qualified _ package name =>
      rw [resolveType]
      exact yields_qualifiedType file package name
  | .generic _ base _ =>
      rw [resolveType]
      exact yields_resolveType himporter hlinks file tparams base w
  | .paren _ inner =>
      rw [resolveType]
      exact yields_resolveType himporter hlinks file tparams inner w
  | .negated _ inner =>
      rw [resolveType]
      exact yields_resolveType himporter hlinks file tparams inner w
  | .pointer _ elem =>
      rw [resolveType]
      apply (yields_resolveType himporter hlinks file tparams elem w).bind
      intro elem v _ helem
      exact Yields.pure (GoType.within_pointer_iff.mpr helem)
  | .slice _ elem =>
      rw [resolveType]
      apply (yields_resolveType himporter hlinks file tparams elem w).bind
      intro elem v _ helem
      exact Yields.pure (GoType.within_slice_iff.mpr helem)
  | .array _ len elem =>
      rw [resolveType]
      apply (yields_resolveType himporter hlinks file tparams elem w).bind
      intro elem v _ helem
      refine Yields.bind (evaluates_eval himporter hlinks file none len v) ?_
      intro value u hvu _
      split
      · exact Yields.pure (GoType.within_array_iff.mpr (helem.leads hvu))
      · exact yields_fineInvalid _ _ _
  | .map _ key value =>
      rw [resolveType]
      apply (yields_resolveType himporter hlinks file tparams key w).bind
      intro key v _ hkey
      apply (yields_resolveType himporter hlinks file tparams value v).bind
      intro value u hvu hvalue
      exact Yields.pure (GoType.within_map_iff.mpr ⟨hkey.leads hvu, hvalue⟩)
  | .chan _ dir elem =>
      rw [resolveType]
      apply (yields_resolveType himporter hlinks file tparams elem w).bind
      intro elem v _ helem
      exact Yields.pure (GoType.within_chan_iff.mpr helem)
  | .func _ params results =>
      rw [resolveType]
      apply (yields_paramTypes himporter hlinks file tparams params w).bind
      intro params v _ hparams
      apply (yields_paramTypes himporter hlinks file tparams results v).bind
      intro results u hvu hresults
      exact Yields.pure (fine_func (hparams.leads hvu) hresults)
  | .struct _ fields =>
      rw [resolveType]
      refine (yields_structFields himporter hlinks file tparams [] fields w
        (List.forall_mem_nil _)).bind ?_
      intro fields v _ hfields
      exact Yields.pure (GoType.within_struct_iff.mpr hfields)
  | .interface _ elems =>
      rw [resolveType]
      exact yields_interfaceElems himporter hlinks file tparams [] [] elems w
        (List.forall_mem_nil _) (List.forall_mem_nil _)

theorem yields_paramTypes (himporter : Session.Answering importer)
    (hlinks : sc.Follows importer links) (file : String) (tparams : List String)
    (params : List Source.Param) (w : Place Progress) :
    Yields (sc.course importer) (sc.paramTypes links file tparams params) w
      fun types v => sc.FineTypes v types.1 := by
  match params with
  | [] =>
      rw [paramTypes]
      exact Yields.pure (List.forall_mem_nil _)
  | .plain names type :: rest =>
      rw [paramTypes]
      apply (yields_resolveType himporter hlinks file tparams type w).bind
      intro type v _ htype
      apply (yields_paramTypes himporter hlinks file tparams rest v).bind
      intro types u hvu htypes
      apply Yields.pure
      intro t ht
      rcases List.mem_append.mp ht with hnew | hrest
      · rw [(List.mem_replicate.mp hnew).2]
        exact htype.leads hvu
      · exact htypes t hrest
  | .variadic _ type :: rest =>
      rw [paramTypes]
      apply (yields_resolveType himporter hlinks file tparams type w).bind
      intro type v _ htype
      apply (yields_paramTypes himporter hlinks file tparams rest v).bind
      intro types u hvu htypes
      apply Yields.pure
      intro t ht
      rcases List.mem_cons.mp ht with rfl | hrest
      · exact GoType.within_slice_iff.mpr (htype.leads hvu)
      · exact htypes t hrest

theorem yields_structFields (himporter : Session.Answering importer)
    (hlinks : sc.Follows importer links) (file : String) (tparams : List String)
    (fields : List (Field GoType)) (decls : List Source.FieldDecl) (w : Place Progress)
    (hfields : sc.FineFields w fields) :
    Yields (sc.course importer) (sc.structFields links file tparams fields decls) w
      fun fields v => sc.FineFields v fields := by
  match decls with
  | [] =>
      rw [structFields]
      exact Yields.pure hfields
  | .named _ names type tag :: rest =>
      rw [structFields]
      apply (yields_resolveType himporter hlinks file tparams type w).bind
      intro type v hwv htype
      apply (yields_addFields file _ _ names (hfields.leads hwv) htype).bind
      intro fields' u _ hfields'
      exact yields_structFields himporter hlinks file tparams fields' rest u hfields'
  | .embedded _ star type tag :: rest =>
      rw [structFields]
      apply (yields_resolveType himporter hlinks file tparams type w).bind
      intro base v hwv hbase
      have hfield : sc.Fine v (if star then .pointer base else base) := by
        split
        · exact GoType.within_pointer_iff.mpr hbase
        · exact hbase
      apply (yields_addField file _ (hfields.leads hwv) hfield).bind
      intro fields' u _ hfields'
      exact yields_structFields himporter hlinks file tparams fields' rest u hfields'

theorem yields_interfaceElems (himporter : Session.Answering importer)
    (hlinks : sc.Follows importer links) (file : String) (tparams : List String)
    (methods : List (InterfaceMethod GoType)) (embedded : List GoType)
    (elems : List Source.InterfaceElem) (w : Place Progress)
    (hmethods : sc.FineMethods w methods) (hembedded : sc.FineTypes w embedded) :
    Yields (sc.course importer)
      (sc.interfaceElems links file tparams methods embedded elems) w
      fun type v => sc.Fine v type := by
  match elems with
  | [] =>
      rw [interfaceElems]
      exact Yields.pure (GoType.within_interface hmethods hembedded)
  | .method x name params results :: rest =>
      rw [interfaceElems]
      apply (yields_paramTypes himporter hlinks file tparams params w).bind
      intro params v hwv hparams
      apply (yields_paramTypes himporter hlinks file tparams results v).bind
      intro results u hvu hresults
      have hsignature : sc.Fine u (.func ⟨params.1, results.1, params.2⟩) :=
        fine_func (hparams.leads hvu) hresults
      apply (yields_addMethod file x.line ((hmethods.leads hwv).leads hvu) hsignature).bind
      intro methods' y huy hmethods'
      exact yields_interfaceElems himporter hlinks file tparams methods' embedded rest y hmethods'
        (((hembedded.leads hwv).leads hvu).leads huy)
  | .union terms :: rest =>
      rw [interfaceElems]
      apply (yields_resolveTypes himporter hlinks file tparams terms w).bind
      intro types v hwv htypes
      refine yields_interfaceElems himporter hlinks file tparams methods (embedded ++ types) rest v
        (hmethods.leads hwv) ?_
      intro type htype
      rcases List.mem_append.mp htype with hold | hnew
      · exact hembedded.leads hwv type hold
      · exact htypes type hnew

theorem yields_resolveTypes (himporter : Session.Answering importer)
    (hlinks : sc.Follows importer links) (file : String) (tparams : List String)
    (types : List Source.TypeExpr) (w : Place Progress) :
    Yields (sc.course importer) (sc.resolveTypes links file tparams types) w
      fun types v => sc.FineTypes v types := by
  match types with
  | [] =>
      rw [resolveTypes]
      exact Yields.pure (List.forall_mem_nil _)
  | type :: rest =>
      rw [resolveTypes]
      apply (yields_resolveType himporter hlinks file tparams type w).bind
      intro type v _ htype
      apply (yields_resolveTypes himporter hlinks file tparams rest v).bind
      intro types u hvu htypes
      apply Yields.pure
      intro t ht
      rcases List.mem_cons.mp ht with rfl | hrest
      · exact htype.leads hvu
      · exact htypes t hrest

theorem evaluates_eval (himporter : Session.Answering importer)
    (hlinks : sc.Follows importer links) (file : String) (iota : Option Nat)
    (e : Source.Expr) (w : Place Progress) :
    Evaluates (sc.course importer) (sc.eval links file iota e) w fun x v => sc.Fine v x.2 := by
  match e with
  | .int x =>
      rw [eval]
      exact evaluates_literal _ _ _ (by decide)
  | .float x =>
      rw [eval]
      exact evaluates_literal _ _ _ (by decide)
  | .rune x =>
      rw [eval]
      exact evaluates_literal _ _ _ (by decide)
  | .string x =>
      rw [eval]
      exact evaluates_literal _ _ _ (by decide)
  | .bool _ value =>
      rw [eval]
      exact Evaluates.pure (GoType.within_basic (by decide))
  | .iota _ =>
      cases iota with
      | some n =>
          rw [eval]
          exact Evaluates.pure (GoType.within_basic (by decide))
      | none =>
          rw [eval]
          exact Evaluates.throw
  | .nil _ =>
      rw [eval]
      exact Evaluates.throw
  | .imaginary _ =>
      rw [eval]
      exact Evaluates.throw
  | .paren _ inner =>
      rw [eval]
      exact evaluates_eval himporter hlinks file iota inner w
  | .ident x =>
      rw [eval]
      exact evaluates_identConst hlinks file x.text
  | .selector x operand field =>
      rw [eval.eq_def]
      dsimp only
      split
      · refine Yields.of_holds fun hw => Yields.pure ?_
        intro value hvalue
        exact hw.fine_qualifiedConst hvalue
      · exact Evaluates.throw
  | .unary _ op operand =>
      rw [eval]
      apply (evaluates_eval himporter hlinks file iota operand w).bind
      intro x v _ hx
      dsimp only
      split
      · exact Evaluates.pure hx
      · exact Evaluates.throw
  | .binary _ op left right =>
      rw [eval]
      apply (evaluates_eval himporter hlinks file iota left w).bind
      intro x v _ hx
      apply (evaluates_eval himporter hlinks file iota right v).bind
      intro y u hvu hy
      exact evaluates_combine himporter hlinks op (hx.leads hvu) hy
  | .call x function [argument] =>
      rw [eval]
      split
      · apply (evaluates_eval himporter hlinks file iota argument w).bind
        intro y v _ _
        split
        · exact Evaluates.pure (GoType.within_basic (by decide))
        · exact Evaluates.throw
      · refine Evaluates.bind
          (Evaluates.lift (yields_conversionTarget hlinks file function)) ?_
        intro target v _ htarget
        split
        · exact Evaluates.throw
        · next type =>
            apply (evaluates_eval himporter hlinks file iota argument v).bind
            intro y u hvu _
            exact evaluates_convertTo himporter hlinks y.1 ((htarget type rfl).leads hvu)
  | .call x function [] =>
      rw [eval]
      · exact Evaluates.throw
      · intro argument h
        cases h
  | .call x function (_ :: _ :: _) =>
      rw [eval]
      · exact Evaluates.throw
      · intro argument h
        cases h
  | .conversion _ type operand =>
      rw [eval]
      refine Evaluates.bind
        (Evaluates.lift (yields_resolveType himporter hlinks file [] type w)) ?_
      intro target v _ htarget
      apply (evaluates_eval himporter hlinks file iota operand v).bind
      intro x u hvu _
      exact evaluates_convertTo himporter hlinks x.1 (htarget.leads hvu)
  | .other x =>
      rw [eval]
      exact Evaluates.throw

end

end Scope
end GoAtlas
