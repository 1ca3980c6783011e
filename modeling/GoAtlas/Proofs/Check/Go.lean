import GoAtlas.Proofs.Check.Links

/-!
# What the Go checker finds

The definitions and constants that a check ends with have fine types only, and there is one
definition for every type that the package declares.
-/

namespace GoAtlas
namespace Scope

variable {sc : Scope} {importer : Session.LocalImporter} {w v : Place Progress}

def FineDef (sc : Scope) (w : Place Progress) (d : TypeDef) : Prop :=
  d.Within (Complained w.1.errors ∨ w.2.Excused)
    fun package name => sc.Declares package name ∨ w.2.Knows package name

structure Defines (sc : Scope) (w : Place Progress) (name : String) (decl : TypeDecl)
    (d : TypeDef) : Prop where
  name : d.name = .declared sc.path name
  isAlias : d.isAlias = decl.spec.isAlias
  fine : sc.FineDef w d
  shaped : d.isAlias = false -> d.underlying.name? = none

theorem Defines.leads {name : String} {decl : TypeDecl} {d : TypeDef}
    (h : sc.Defines w name decl d) (hleads : (sc.course importer).Leads w v) :
    sc.Defines v name decl d where
  name := h.name
  isAlias := h.isAlias
  fine leaf hleaf := (h.fine leaf hleaf).mono
    (Or.imp hleads.2 fun hexcused => hexcused.retains hleads.1.retains)
    (fun _ _ => Or.imp_right fun hknows => hknows.retains hleads.1.retains)
  shaped := h.shaped

theorem fineDef_iff {d : TypeDef} :
    sc.FineDef w d ↔
      sc.Fine w d.underlying ∧ forall m, m ∈ d.methods -> sc.Fine w (.func m.signature) :=
  GoType.within_def_iff

/-!
# Methods
-/

def FineTable (sc : Scope) (w : Place Progress) (methods : Table (List Method)) : Prop :=
  forall base ms, methods.get? base = some ms ->
    forall m, m ∈ ms -> sc.Fine w (.func m.signature)

theorem FineTable.leads {methods : Table (List Method)} (h : sc.FineTable w methods)
    (hleads : (sc.course importer).Leads w v) : sc.FineTable v methods :=
  fun base ms hms m hm => (h base ms hms m hm).leads hleads

theorem FineTable.of_getD {methods : Table (List Method)} (h : sc.FineTable w methods)
    {base : String} {m : Method} (hm : m ∈ (methods.get? base).getD []) :
    sc.Fine w (.func m.signature) := by
  cases hms : methods.get? base with
  | none =>
      rw [hms] at hm
      cases hm
  | some ms =>
      rw [hms] at hm
      exact h base ms hms m hm

theorem yields_addToType (file : String) (line : Nat) (base : String) {m : Method}
    {methods : Table (List Method)} (hmethods : sc.FineTable w methods)
    (hm : sc.Fine w (.func m.signature)) :
    Yields (sc.course importer) (addToType file line base m methods) w
      fun methods v => sc.FineTable v methods := by
  unfold addToType
  dsimp only
  split
  · apply (yields_complain file line _).bind
    intro _ v hwv _
    exact Yields.pure (hmethods.leads hwv)
  · apply Yields.pure
    refine Table.forall_get?_insert
      (P := fun _ (ms : List Method) => forall m, m ∈ ms -> sc.Fine w (.func m.signature))
      hmethods ?_
    intro n hn
    rcases List.mem_append.mp hn with hold | hnew
    · exact hmethods.of_getD hold
    · rw [List.mem_singleton.mp hnew]
      exact hm

theorem yields_methodSignature (himporter : Session.Answering importer) (file : String)
    (tparams : List String) (d : Source.MethodDecl) :
    Yields (sc.course importer) (sc.methodSignature file tparams d) w
      fun signature v => sc.Fine v (.func signature) := by
  have hlinks := follows_links himporter sc
  unfold methodSignature
  apply (yields_paramTypes himporter hlinks file tparams d.params w).bind
  intro params v _ hparams
  apply (yields_paramTypes himporter hlinks file tparams d.results v).bind
  intro results u hvu hresults
  exact Yields.pure (fine_func (hparams.leads hvu) hresults)

theorem yields_checkMethod (himporter : Session.Answering importer)
    {methods : Table (List Method)} (hmethods : sc.FineTable w methods) (m : MethodSource) :
    Yields (sc.course importer) (sc.checkMethod methods m) w
      fun methods v => sc.FineTable v methods := by
  unfold checkMethod
  dsimp only
  split
  · apply (yields_complain _ _ _).bind
    intro _ v hwv _
    exact Yields.pure (hmethods.leads hwv)
  · split
    · apply (yields_complain _ _ _).bind
      intro _ v hwv _
      exact Yields.pure (hmethods.leads hwv)
    · split
      · exact Yields.pure hmethods
      · apply (yields_methodSignature himporter _ _ _).bind
        intro signature v hwv hsignature
        exact yields_addToType _ _ _ (hmethods.leads hwv) hsignature

/-!
# Definitions
-/

theorem yields_typeDef (himporter : Session.Answering importer)
    {methods : Table (List Method)} (hmethods : sc.FineTable w methods) {name : String}
    {decl : TypeDecl} (hdecl : sc.types.get? name = some decl) :
    Yields (sc.course importer) (sc.typeDef methods name decl) w
      fun d v => sc.Defines v name decl d := by
  have hlinks := follows_links himporter sc
  unfold typeDef
  dsimp only
  split
  · next halias =>
      apply (hlinks.aliased name decl w hdecl).bind
      intro type v _ htype
      refine Yields.pure ⟨rfl, halias.symm, ?_, fun h => by cases h⟩
      exact fineDef_iff.mpr ⟨htype, List.forall_mem_nil _⟩
  · next halias =>
      apply (hlinks.underlying name decl w hdecl).bind
      intro type v hwv htype
      refine Yields.pure ⟨rfl, (eq_false_of_ne_true halias).symm, ?_, fun _ => htype.2⟩
      exact fineDef_iff.mpr ⟨htype.1, fun m hm => (hmethods.leads hwv).of_getD hm⟩

theorem yields_constDef (himporter : Session.Answering importer) (i : Nat) (d : ConstDecl) :
    Yields (sc.course importer) (sc.constDef? i d) w
      fun c v => forall c', c = some c' -> sc.Fine v c'.type := by
  unfold constDef?
  apply ((follows_links himporter sc).const i w).bind
  intro value v _ hvalue
  split
  · next value type =>
      apply Yields.pure
      intro c hc
      cases hc
      exact hvalue (value, type) rfl
  · apply Yields.pure
    intro c hc
    cases hc

theorem yields_checkImports :
    Yields (sc.course importer) sc.checkImports w fun _ _ => True := by
  unfold checkImports
  refine Yields.forM (P := fun _ => True) (fun f v _ _ => ?_) trivial
  refine Yields.forM (P := fun _ => True) (fun i u _ _ => ?_) trivial
  unfold checkImport
  dsimp only
  split
  · exact Yields.pure trivial
  · exact (yields_report _ _ _ _).mono fun _ _ _ _ _ => trivial

structure Checks (sc : Scope) (w : Place Progress) (p : CheckedPackage) : Prop where
  types : forall d, d ∈ p.types -> exists name decl, sc.Defines w name decl d
  declared : forall name decl, sc.types.get? name = some decl ->
    exists d, d ∈ p.types ∧ sc.Defines w name decl d
  consts : forall c, c ∈ p.consts -> sc.Fine w c.type

theorem yields_methodTable (himporter : Session.Answering importer) :
    Yields (sc.course importer) (sc.methods.foldlM sc.checkMethod Table.empty) w
      fun methods v => sc.FineTable v methods := by
  refine Yields.foldlM (P := fun methods v => sc.FineTable v methods) ?_ ?_
  · intro methods m v _ hmethods
    exact yields_checkMethod himporter hmethods m
  · intro base ms hms
    cases hms

theorem yields_typeDefs (himporter : Session.Answering importer)
    {methods : Table (List Method)} (hmethods : sc.FineTable w methods) :
    Yields (sc.course importer)
      (sc.types.entries.mapM fun (name, d) => sc.typeDef methods name d) w
      fun types v => (forall d, d ∈ types -> exists name decl, sc.Defines v name decl d) ∧
        forall name decl, sc.types.get? name = some decl ->
          exists d, d ∈ types ∧ sc.Defines v name decl d := by
  refine Yields.mono (Yields.mapM
    (P := fun (entry : String × TypeDecl) d v => sc.Defines v entry.1 entry.2 d) ?_ ?_) ?_
  · intro entry d v u hvu hdefines
    exact hdefines.leads hvu
  · intro entry v hentry hwv
    exact yields_typeDef himporter (hmethods.leads hwv) (Table.mem_entries_iff.mp hentry)
  · rintro types v _ _ ⟨htypes, hdeclared⟩
    constructor
    · intro d hd
      rcases htypes d hd with ⟨entry, _, hdefines⟩
      exact ⟨entry.1, entry.2, hdefines⟩
    · intro name decl hdecl
      exact hdeclared (name, decl) (Table.mem_entries_iff.mpr hdecl)

theorem yields_constDefs (himporter : Session.Answering importer) :
    Yields (sc.course importer) (sc.consts.zipIdx.mapM fun (d, i) => sc.constDef? i d) w
      fun consts v => forall c, some c ∈ consts -> sc.Fine v c.type := by
  refine Yields.mono (Yields.mapM (P := fun (_ : ConstDecl × Nat) (c : Option ConstDef) v =>
    forall c', c = some c' -> sc.Fine v c'.type) ?_ ?_) ?_
  · intro _ c v u hvu hc c' hc'
    exact (hc c' hc').leads hvu
  · intro entry v _ _
    exact yields_constDef himporter entry.2 entry.1
  · rintro consts v _ _ ⟨hconsts, _⟩ c hc
    rcases hconsts (some c) hc with ⟨_, _, hfine⟩
    exact hfine c rfl

theorem yields_definitions (himporter : Session.Answering importer) (name : String) :
    Yields (sc.course importer) (sc.definitions name) w fun p v => sc.Checks v p := by
  unfold definitions
  apply (yields_methodTable himporter).bind
  intro methods v _ hmethods
  apply (yields_typeDefs himporter hmethods).bind
  rintro types u _ ⟨htypes, hdeclared⟩
  apply (yields_constDefs himporter).bind
  intro consts x hux hconsts
  apply yields_checkImports.bind
  intro _ y hxy _
  refine Yields.pure ⟨?_, ?_, ?_⟩
  · intro d hd
    rcases htypes d hd with ⟨name, decl, hdefines⟩
    exact ⟨name, decl, (hdefines.leads hux).leads hxy⟩
  · intro name decl hdecl
    rcases hdeclared name decl hdecl with ⟨d, hd, hdefines⟩
    exact ⟨d, hd, (hdefines.leads hux).leads hxy⟩
  · intro c hc
    rcases List.mem_filterMap.mp hc with ⟨c', hc', rfl⟩
    exact (hconsts c hc').leads hxy

end Scope

theorem run_goChecker (importer : Session.Importer) (source : LoadedPackage) (s : Session) :
    (goChecker source).run importer s = (checkGo source).run (importer.inDir source.dir) s :=
  Inquiry.run_mapRequests _ _ _ _

/-- What a check of the Go checker ends with, and what its second pass may ask for. -/
theorem checkGo_spec {importer : Session.LocalImporter} (himporter : Session.Answering importer)
    {source : LoadedPackage} {s t : Session} {outcome : CheckOutcome}
    (hs : s.Checking source.importPath)
    (hrun : (checkGo source).run importer s = (outcome, t)) :
    (t.Sound ∧ exists (sc : Scope) (progress : Progress), sc.path = source.importPath ∧
      progress.errors = outcome.errors ∧ sc.Checks (progress, t) outcome.package) ∧
    forall q u, Inquiry.Asks importer q u (checkGo source) s ->
      Inquiry.Asks importer q u (collect source) s ∨
        exists p, u.cache.get? q = some (.resolved p) := by
  rcases collect_invariant himporter hs with ⟨c, u, hcollect, hinvariant, _⟩
  have hstart : c.scope.Invariant (⟨c.packages, Table.empty, Table.empty, [], c.errors⟩, u) :=
    { session := hinvariant.home ▸ hinvariant.session
      packages := hinvariant.packages
      bindings := hinvariant.bindings
      aliases := fun _ _ h => by cases h
      underlying := fun _ _ h => by cases h
      values := fun _ _ h => by cases h }
  rcases Scope.yields_definitions himporter source.name hstart with
    ⟨⟨package, v, hdefinitions, hv, _, hchecks⟩, hmay⟩
  have hresult : (checkGo source).run importer s = (⟨package, v.1.errors⟩, v.2) := by
    unfold checkGo
    rw [Inquiry.run_bind, hcollect, Inquiry.run_bind]
    change (Inquiry.run importer (StateT.run (c.scope.definitions source.name) _) u) = _
      at hdefinitions
    rw [hdefinitions]
    rfl
  cases hrun.symm.trans hresult
  refine ⟨⟨hv.session.sound, c.scope, v.1, hinvariant.home, rfl, hchecks⟩, ?_⟩
  intro q x hasks
  unfold checkGo at hasks
  rcases hasks.of_bind with hasks | hasks
  · exact Or.inl hasks
  · rw [hcollect] at hasks
    rcases hasks.of_bind with hasks | hasks
    · exact Or.inr (hmay q x hasks)
    · cases hasks

end GoAtlas
