import GoAtlas.Proofs.Check.ExpressionTrails

/-!
# Trails of the second pass

Two scopes with the same declarations only have to share what these spell.  Then every declaration
is worked out along one trail in both of them, and so is the whole second pass.
-/

namespace GoAtlas

open Source (Spelling typeSpelled paramsSpelled exprSpelled)
open Scope (Pending)

namespace Scope

/-!
# Declarations
-/

inductive Spells (sc : Scope) : String -> Spelling -> Prop where
  | type {name : String} {d : TypeDecl} {s : Spelling} (hd : sc.types.get? name = some d)
      (hs : s ∈ typeSpelled d.spec.type) : Spells sc d.file s
  | value {d : ConstDecl} {expr : Source.Expr} {s : Spelling} (hd : d ∈ sc.consts)
      (hexpr : d.expr = some expr) (hs : s ∈ exprSpelled expr) : Spells sc d.file s
  | constType {d : ConstDecl} {type : Source.TypeExpr} {s : Spelling} (hd : d ∈ sc.consts)
      (htype : d.type = some type) (hs : s ∈ typeSpelled type) : Spells sc d.file s
  | params {m : MethodSource} {s : Spelling} (hm : m ∈ sc.methods)
      (hs : s ∈ paramsSpelled m.decl.params) : Spells sc m.file s
  | results {m : MethodSource} {s : Spelling} (hm : m ∈ sc.methods)
      (hs : s ∈ paramsSpelled m.decl.results) : Spells sc m.file s

section Declarations

variable {sc other : Scope} {known : String -> String -> Prop} {Fault : Complaint -> Prop}

theorem trail_aliasBody (h : Setting sc other known Fault sc.Spells) {name : String} {d : TypeDecl}
    (hd : sc.types.get? name = some d) :
    Trail sc other known Fault (fun links => sc.aliasBody links d)
      (fun links => other.aliasBody links d) fun type => type.Within True known :=
  trail_resolveType h d.file d.spec.params d.spec.type fun _ hs => .type hd hs

theorem trail_typeBody (h : Setting sc other known Fault sc.Spells) {name : String} {d : TypeDecl}
    (hd : sc.types.get? name = some d) :
    Trail sc other known Fault (fun links => sc.typeBody links d)
      (fun links => other.typeBody links d) fun type => type.Within True known :=
  (trail_aliasBody h hd).bind fun _ htype => Trail.behind htype

theorem trail_declaredValue (h : Setting sc other known Fault sc.Spells) {d : ConstDecl}
    (hd : d ∈ sc.consts) {expr : Source.Expr} (hexpr : d.expr = some expr) :
    Trail.Evaluated sc other known Fault (fun links => sc.declaredValue links d expr)
      (fun links => other.declaredValue links d expr) fun x => x.2.Within True known := by
  unfold declaredValue
  refine (trail_eval h d.file (some d.iota) expr fun _ hs => .value hd hexpr hs).bind
    fun value hvalue => ?_
  split
  · exact Trail.value _ hvalue
  · next type htype =>
      have htarget := trail_resolveType h d.file [] type fun _ hs => .constType hd htype hs
      exact Trail.Evaluated.bind (Trail.lift htarget) fun target htarget =>
        trail_assign value htarget

theorem trail_constBody (h : Setting sc other known Fault sc.Spells) {d : ConstDecl}
    (hd : d ∈ sc.consts) :
    Trail sc other known Fault (fun links => sc.constBody links d)
      (fun links => other.constBody links d)
      fun value => forall x, value = some x -> x.2.Within True known := by
  have hnone : forall x : Valued, none = some x -> x.2.Within True known := by
    intro x hx
    cases hx
  unfold constBody
  split
  · exact Trail.pure _ hnone
  · next expr hexpr =>
      refine Trail.bind (trail_declaredValue h hd hexpr) fun result hresult => ?_
      cases result with
      | ok value =>
          refine Trail.pure _ ?_
          intro x hx
          cases hx
          exact hresult value rfl
      | error cause =>
          exact (Trail.complain _ _ (h.fault _ rfl)).bind fun _ _ => Trail.pure _ hnone

theorem trail_saying (h : Setting sc other known Fault sc.Spells) {k : Pending}
    {d : Saying k.Result} (hd : sc.saying? k = some d) :
    exists d', other.saying? k = some d' ∧ d'.file = d.file ∧ d'.line = d.line ∧
      d'.circular = d.circular ∧ Trail sc other known Fault d.body d'.body (k.Knows known) := by
  match k with
  | .alias name =>
      obtain ⟨decl, hdecl, rfl⟩ := Option.map_eq_some_iff.mp hd
      rw [← h.shares.types] at hdecl
      refine ⟨_, Option.map_eq_some_iff.mpr ⟨decl, hdecl, rfl⟩, rfl, rfl, rfl, ?_⟩
      exact trail_aliasBody h (h.shares.types ▸ hdecl)
  | .type name =>
      obtain ⟨decl, hdecl, rfl⟩ := Option.map_eq_some_iff.mp hd
      rw [← h.shares.types] at hdecl
      refine ⟨_, Option.map_eq_some_iff.mpr ⟨decl, hdecl, rfl⟩, rfl, rfl, rfl, ?_⟩
      exact trail_typeBody h (h.shares.types ▸ hdecl)
  | .const i =>
      obtain ⟨decl, hdecl, rfl⟩ := Option.map_eq_some_iff.mp hd
      rw [← h.shares.consts] at hdecl
      refine ⟨_, Option.map_eq_some_iff.mpr ⟨decl, hdecl, rfl⟩, rfl, rfl, rfl, ?_⟩
      exact trail_constBody h (List.mem_of_getElem? (h.shares.consts ▸ hdecl))

theorem setting_self (sc : Scope) {spelled : String -> Spelling -> Prop}
    (hfault : forall complaint, complaint.isOfBody = true -> Fault complaint) :
    Setting sc sc (fun _ _ => True) Fault spelled where
  shares := Shares.refl sc _
  supplies :=
    { own := fun _ => trivial
      dotType := fun _ _ type _ => type.within_all
      opaqueType := fun _ _ _ _ _ _ _ _ _ => trivial
      importedType := fun _ _ _ _ _ d _ _ _ _ => d.asType.within_all
      dotConst := fun _ _ x _ _ _ => x.2.within_all
      qualifiedConst := fun _ _ _ x _ _ => x.2.within_all
      qualifiedTarget := fun _ _ _ type _ _ => type.within_all }
  fault := hfault

theorem trail_signatureWith (h : Setting sc other known Fault sc.Spells) {m : MethodSource}
    (hm : m ∈ sc.methods) (tparams : List String) :
    Trail sc other known Fault (fun links => sc.signatureWith links m.file tparams m.decl)
      (fun links => other.signatureWith links m.file tparams m.decl) fun _ => True := by
  unfold signatureWith
  have hparams := trail_paramTypes h m.file tparams m.decl.params fun _ hs => .params hm hs
  have hresults := trail_paramTypes h m.file tparams m.decl.results fun _ hs => .results hm hs
  exact hparams.bind fun _ _ => hresults.bind fun _ _ => Trail.pure _ trivial

end Declarations

/-!
# The whole package
-/

section Package

variable {sc other : Scope} {known : String -> String -> Prop}

theorem trail_checkMethodWith (h : Setting sc other known (fun _ => True) sc.Spells)
    (methods : Table (List Method)) {m : MethodSource} (hm : m ∈ sc.methods) :
    Trail sc other known (fun _ => True) (fun links => sc.checkMethodWith links methods m)
      (fun links => other.checkMethodWith links methods m) fun _ => True := by
  unfold checkMethodWith addToType
  dsimp only
  split
  · exact (Trail.complain _ _ trivial).bind fun _ _ => Trail.pure _ trivial
  · rw [h.shares.isLocalType]
    split
    · exact (Trail.complain _ _ trivial).bind fun _ _ => Trail.pure _ trivial
    · split
      · exact Trail.pure _ trivial
      · refine (trail_signatureWith h hm _).bind fun signature _ => ?_
        split
        · exact (Trail.complain _ _ trivial).bind fun _ _ => Trail.pure _ trivial
        · exact Trail.pure _ trivial

theorem trail_typeDefWith (hpath : other.path = sc.path) (methods : Table (List Method))
    (name : String) (d : TypeDecl) :
    Trail sc other known (fun _ => True) (fun links => sc.typeDefWith links methods name d)
      (fun links => other.typeDefWith links methods name d) fun _ => True := by
  unfold typeDefWith
  dsimp only
  rw [hpath]
  split
  · exact (Trail.aliased name).bind fun _ _ => Trail.pure _ trivial
  · exact (Trail.underlying name).bind fun _ _ => Trail.pure _ trivial

theorem trail_constDefWith {i : Nat} {d : ConstDecl} (hd : sc.consts[i]? = some d) :
    Trail sc other known (fun _ => True) (fun links => constDefWith links i d)
      (fun links => constDefWith links i d) fun _ => True := by
  unfold constDefWith
  refine (Trail.const (List.getElem?_eq_some_iff.mp hd).1).bind fun value _ => ?_
  split
  · exact Trail.pure _ trivial
  · exact Trail.pure _ trivial

theorem trail_checkImports (sc other scope : Scope) {Fault : Complaint -> Prop}
    (h : forall path label, Fault (.unusedImport path label)) :
    Trail sc other known Fault (fun _ => scope.checkImports) (fun _ => scope.checkImports)
      fun _ => True := by
  refine Trail.forM _ fun f => Trail.forM _ fun i => ?_
  unfold checkImport
  dsimp only
  split
  · exact Trail.pure _ trivial
  · exact Trail.report _ _ _ (h _ _)

theorem trail_definitionsWith (h : Setting sc other known (fun _ => True) sc.Spells)
    (name : String) :
    Trail sc other known (fun _ => True) (fun links => sc.definitionsWith links name)
      (fun links => other.definitionsWith links name) fun _ => True := by
  unfold definitionsWith importList
  rw [h.shares.methods, h.shares.types, h.shares.consts, h.shares.checkImports,
    h.shares.importPaths]
  refine (Trail.foldlM sc.methods (fun methods m hm _ => trail_checkMethodWith h methods hm)
    trivial).bind fun methods _ => ?_
  refine (Trail.mapM sc.types.entries fun entry _ =>
    trail_typeDefWith h.shares.path methods entry.1 entry.2).bind fun types _ => ?_
  refine (Trail.mapM sc.consts.zipIdx fun entry hentry =>
    trail_constDefWith (List.mem_zipIdx_iff_getElem?.mp hentry)).bind fun consts _ => ?_
  exact (trail_checkImports sc other sc fun _ _ => trivial).bind fun _ _ => Trail.pure _ trivial

end Package
end Scope

def LoadedPackage.ofText (text : String) : LoadedPackage :=
  ⟨⟨"/p"⟩, "p", "p", ["a.go"], (Loading.parseFiles [("a.go", Text.encode text)]).2⟩

end GoAtlas
