import GoAtlas.Proofs.Check.Accounting
import GoAtlas.Proofs.Check.Distinct
import GoAtlas.Proofs.Check.Found
import GoAtlas.Proofs.Check.Visibility

/-!
# Names that are declared once

In the outcome of a check no struct has two fields of one name, no interface two methods and no
definition two methods, if this is so in the packages that the check is told about.  Each field and
each method that is left out for its name is complained about.
-/

namespace GoAtlas

open Scope (Pending)

/-!
# Method declarations
-/

namespace Attachment

def type (a : Attachment) : Source.TypeExpr :=
  .func a.decl.extent a.decl.params a.decl.results

def Writes (a : Attachment) (m : Method) : Prop :=
  exists signature, m = a.method signature ∧ a.type.Shapes (.func signature)

end Attachment

def Placement.repeats : Placement -> List TypeError
  | attached a => Source.typeRepeats a.file a.type
  | _ => []

namespace Scope

def attachments (sc : Scope) : List Attachment :=
  sc.placements.filterMap Placement.attachment?

def Staffed (sc : Scope) (methods : Table (List Method)) : Prop :=
  forall base m, m ∈ (methods.get? base).getD [] -> (GoType.func m.signature).Distinct ∧
    exists a, a ∈ sc.attachments ∧ a.receiver.base = base ∧ a.Writes m

theorem staffed_empty (sc : Scope) : sc.Staffed Table.empty := by
  intro base m hm
  cases hm

section Methods

variable {answers : Answers} {sc : Scope} {links : Links}

theorem voices_addToType {a : Attachment} (ha : a ∈ sc.attachments) {signature : Signature GoType}
    (hmakes : a.type.Makes GoType.Distinct (.func signature)) {methods : Table (List Method)}
    (hmethods : sc.Staffed methods) :
    Voices answers (sc.Settled answers)
      (addToType a.file a.decl.name.line a.receiver.base (a.method signature) methods)
      sc.Staffed [] := by
  unfold addToType
  dsimp only
  split
  · exact voices_complained hmethods _ _ _
  · refine Voices.pure fun base m hm => ?_
    rw [Table.get?_insert] at hm
    split at hm
    · next hbase =>
        rcases List.mem_append.mp hm with hold | hnew
        · exact hmethods base m (hbase ▸ hold)
        · rw [List.mem_singleton.mp hnew]
          exact ⟨hmakes.2, a, ha, hbase.symm, signature, rfl, hmakes.1⟩
    · exact hmethods base m hm

theorem voices_checkMethodWith (hsc : sc.Distinct) (hlinks : Settling answers sc links)
    {m : MethodSource} (hm : m ∈ sc.methods) {methods : Table (List Method)}
    (hmethods : sc.Staffed methods) :
    Voices answers (sc.Settled answers) (sc.checkMethodWith links methods m) sc.Staffed
      (m.placement sc.isLocalType).repeats := by
  have hplacement : m.placement sc.isLocalType ∈ sc.placements := List.mem_map_of_mem hm
  unfold checkMethodWith
  unfold MethodSource.placement at hplacement ⊢
  dsimp only
  cases htype : Source.receiverType? m.decl.receiver with
  | none => exact voices_complained hmethods _ _ _
  | some type =>
      rw [htype] at hplacement
      dsimp only at hplacement ⊢
      split
      · exact voices_complained hmethods _ _ _
      · next hlocal =>
          rw [if_neg hlocal] at hplacement
          split
          · exact Voices.pure hmethods
          · next hblank =>
              rw [if_neg hblank] at hplacement
              have hattached : (⟨m.file, m.decl, Source.Receiver.ofType type⟩ : Attachment) ∈
                  sc.attachments := List.mem_filterMap.mpr ⟨_, hplacement, rfl⟩
              rw [← List.append_nil (Placement.repeats _)]
              exact (voices_signatureWith (provides_settled hsc hlinks) _ _ _).bind fun _ hmakes =>
                voices_addToType hattached hmakes hmethods

theorem voices_methods (hsc : sc.Distinct) (hlinks : Settling answers sc links) :
    Voices answers (sc.Settled answers) (sc.methods.foldlM (sc.checkMethodWith links) Table.empty)
      sc.Staffed (sc.placements.flatMap Placement.repeats) := by
  unfold placements
  rw [List.flatMap_map]
  exact Voices.foldlM (fun methods m hm hmethods => voices_checkMethodWith hsc hlinks hm hmethods)
    sc.staffed_empty

end Methods

end Scope

/-!
# Definitions
-/

/-- The definition has what is written in the declaration, without repeated names, and there are
complaints for those. -/
structure TypeDef.Renders (path : String) (attachments : List Attachment)
    (errors : List TypeError) (name : String) (t : TypeDecl) (d : TypeDef) : Prop where
  named : d.name = .declared path name
  isAlias : d.isAlias = t.spec.isAlias
  /-- An alias is the type that is written. -/
  written : t.spec.isAlias = true -> t.Written errors d.underlying
  /-- A type has the structure that is written, or that of the type that is named. -/
  behind : t.spec.isAlias = false -> t.Behind errors d.underlying
  methods : forall m, m ∈ d.methods ->
    exists a, a ∈ attachments ∧ a.receiver.base = name ∧ a.Writes m

theorem TypeDef.Renders.mono {path name : String} {attachments : List Attachment}
    {errors more : List TypeError} {t : TypeDecl} {d : TypeDef}
    (h : d.Renders path attachments errors name t) (hmore : errors <+: more) :
    d.Renders path attachments more name t where
  named := h.named
  isAlias := h.isAlias
  written halias := (h.written halias).mono hmore
  behind halias := (h.behind halias).mono hmore
  methods := h.methods

namespace Scope

/-- The definition of a declaration, with distinct names in its types. -/
structure Rendered (sc : Scope) (errors : List TypeError) (entry : String × TypeDecl)
    (d : TypeDef) : Prop where
  underlying : d.underlying.Distinct
  signatures : forall m, m ∈ d.methods -> (GoType.func m.signature).Distinct
  renders : d.Renders sc.path sc.attachments errors entry.1 entry.2

theorem Rendered.mono {sc : Scope} {errors more : List TypeError} {entry : String × TypeDecl}
    {d : TypeDef} (h : sc.Rendered errors entry d) (hmore : errors <+: more) :
    sc.Rendered more entry d :=
  ⟨h.underlying, h.signatures, h.renders.mono hmore⟩

section Definitions

variable {answers : Answers} {sc : Scope} {links : Links} {p : Progress}

theorem rendered_typeDefWith (hanswers : answers.Distinct) (hsc : sc.Distinct)
    {methods : Table (List Method)} (hmethods : sc.Staffed methods) {name : String} {t : TypeDecl}
    (ht : sc.types.get? name = some t) (hp : sc.Settled answers p) :
    sc.Rendered ((sc.typeDefWith sc.links methods name t).outcome answers p).2.errors (name, t)
      ((sc.typeDefWith sc.links methods name t).outcome answers p).1 := by
  have hlinks := settling_links hanswers hsc
  unfold typeDefWith
  dsimp only
  split
  · next halias =>
      have hsaying : sc.saying? (.alias name) = some ⟨t.file, t.spec.extent.line,
          .recursiveAlias name, fun links => sc.aliasBody links t⟩ :=
        Option.map_eq_some_iff.mpr ⟨t, ht, rfl⟩
      rw [Resolve.outcome_bind]
      refine ⟨(hlinks.follow (.alias name) p hp).1, List.forall_mem_nil _, rfl, halias.symm,
        fun _ => vouches_links hanswers hsc hsaying hp t ht, fun h => ?_, List.forall_mem_nil _⟩
      cases halias.symm.trans h
  · next hproper =>
      have hsaying : sc.saying? (.type name) = some ⟨t.file, t.spec.extent.line,
          .recursiveType name, fun links => sc.typeBody links t⟩ :=
        Option.map_eq_some_iff.mpr ⟨t, ht, rfl⟩
      rw [Resolve.outcome_bind]
      refine ⟨(hlinks.follow (.type name) p hp).1, fun m hm => (hmethods name m hm).1, rfl,
        (Bool.eq_false_iff.mpr hproper).symm, fun h => absurd h hproper,
        fun _ => vouches_links hanswers hsc hsaying hp t ht, fun m hm => (hmethods name m hm).2⟩

/-- What the second pass makes of the declarations of its scope. -/
structure Reveals (sc : Scope) (r : CheckedPackage × Progress) : Prop where
  repeats : (sc.placements.flatMap Placement.repeats).Sublist (hardErrors r.2.errors)
  types : List.Forall₂ (sc.Rendered r.2.errors) sc.types.entries r.1.types
  consts : forall c, c ∈ r.1.consts -> c.type.Distinct

theorem later_consts (hlinks : Settling answers sc links) (p : Progress) :
    sc.Later answers p ((sc.consts.zipIdx.mapM fun entry =>
      constDefWith links entry.2 entry.1).outcome answers p).2 :=
  hlinks.later (Trail.mapM sc.consts.zipIdx fun _ hentry =>
    trail_constDefWith (List.mem_zipIdx_iff_getElem?.mp hentry)) p

theorem rendered_types (hanswers : answers.Distinct) (hsc : sc.Distinct)
    {methods : Table (List Method)} (hmethods : sc.Staffed methods) (hp : sc.Settled answers p) :
    let r := (sc.types.entries.mapM fun entry =>
      sc.typeDefWith sc.links methods entry.1 entry.2).outcome answers p
    sc.Later answers p r.2 ∧ List.Forall₂ (sc.Rendered r.2.errors) sc.types.entries r.1 := by
  have hlinks := settling_links hanswers hsc
  refine Resolve.forall₂_mapM (I := sc.Settled answers)
    (Q := fun entry d q => sc.Rendered q.errors entry d) hlinks.carries.refl hlinks.carries.trans
    (fun h => h.settled) (fun hlater h => h.mono hlater.errors) (fun entry q hentry hq => ?_) hp
  exact ⟨hlinks.later (trail_typeDefWith rfl methods entry.1 entry.2) q,
    rendered_typeDefWith hanswers hsc hmethods (Table.mem_entries_iff.mp hentry) hq⟩

theorem reveals_definitions (hanswers : answers.Distinct) (hsc : sc.Distinct) (name : String)
    (hp : sc.Settled answers p) : sc.Reveals ((sc.definitions name).outcome answers p) := by
  have hlinks := settling_links hanswers hsc
  have hkept : Kept sc answers sc.links (sc.Settled answers) :=
    .of_steps (fun _ file line isSoft complaint hp => hp.complained file line isSoft complaint)
      (fun _ path hp => hp.packageAt path) fun k p _ hp => (hlinks.follow k p hp).2
  have hfound := allFound_definitionsWith hkept hp name
  rw [definitions_eq]
  unfold definitionsWith at hfound ⊢
  simp only [Resolve.outcome_bind, Resolve.outcome_pure] at hfound ⊢
  obtain ⟨hstaffed, hsettled, hvoiced⟩ := voices_methods hsc hlinks p hp
  have htypes := rendered_types hanswers hsc hstaffed hsettled
  have himports : forall q, sc.Later answers q (sc.checkImports.outcome answers q).2 :=
    hlinks.later (trail_checkImports sc sc sc fun _ _ => trivial)
  have hrest := fun q => (later_consts hlinks q).errors.trans (himports _).errors
  refine ⟨?_, htypes.2.imp fun _ _ h => h.mono (hrest _), ?_⟩
  · exact (sublist_of_voiced hvoiced).trans ((htypes.1.errors.trans (hrest _)).sublist.filter _)
  · intro c hc
    obtain ⟨q, i, _, hq, _, _, hvalue⟩ := hfound.exists_const hc
    exact (hlinks.follow (.const i) q hq).1 _ hvalue

end Definitions
end Scope

/-!
# The whole package
-/

def LoadedPackage.attachments (p : LoadedPackage) : List Attachment :=
  p.placements.filterMap Placement.attachment?

/-- No name is repeated in the outcome, and for each one that was there are complaints. -/
structure Unrepeated (p : LoadedPackage) (o : CheckOutcome) : Prop where
  /-- No struct has two fields of one name, no interface and no definition two methods. -/
  distinct : o.package.Distinct
  /-- The types are those that are declared.  They have the fields and methods that are written, in
  order and without those whose name was there before, and each of these is complained about. -/
  types : exists decls : List (String × TypeDecl),
    (forall name t, (name, t) ∈ decls ↔
      exists d, d ∈ p.claimed ∧ d.key = name ∧ d.type? = some t) ∧
    List.Forall₂ (fun entry => TypeDef.Renders p.importPath p.attachments o.errors entry.1 entry.2)
      decls o.package.types
  /-- Names that are repeated in the types of methods are complained about, also of methods that no
  type gets. -/
  signatures : (p.placements.flatMap Placement.repeats).Sublist (hardErrors o.errors)
  /-- Methods whose name was there before are complained about. -/
  methods : ((repeatsAfter Attachment.key [] p.attachments).map Attachment.redeclaration).Sublist
    (hardErrors o.errors)
  /-- Wherever else a type is written, in a constant or in the length of an array, a pass over it
  complains in the same way. -/
  elsewhere : forall answers fuel pending file tparams (e : Source.TypeExpr) before,
    let sc := ((collect p).under answers).scope
    e.Examined file before
      ((sc.resolveType (sc.linksWithin fuel pending) file tparams e).outcome answers before)

theorem redeclarations_sublist (seen : List (String × String)) (placements : List Placement) :
    ((repeatsAfter Attachment.key seen (placements.filterMap Placement.attachment?)).map
      Attachment.redeclaration).Sublist (hardErrors (Placement.faultsAfter seen placements)) := by
  induction placements generalizing seen with
  | nil => exact List.Sublist.refl _
  | cons place rest ih =>
      cases place with
      | misplaced e => exact (ih seen).trans ((List.sublist_cons_self e _).filter _)
      | blank => exact ih seen
      | attached a =>
          rw [List.filterMap_cons, Placement.faultsAfter]
          dsimp only [Placement.attachment?]
          rw [repeatsAfter]
          split
          · exact (ih seen).cons_cons _
          · exact ih _

theorem distinct_scope {answers : Answers} (hanswers : answers.Distinct) (p : LoadedPackage) :
    ((collect p).under answers).scope.Distinct := by
  have hlike := answers.like_refl (((collect p).under answers).scope.Exposed answers)
  have htwins := (Collection.twins_collect p hlike).scope
  constructor
  · intro file label b package hb hpackage
    exact hanswers b.path package (htwins.answer_of_import hlike hb hpackage)
  · intro file b package hb hpackage
    exact hanswers b.path package (htwins.answer_of_dot hlike hb hpackage)

theorem reveals_checkGo {answers : Answers} (hanswers : answers.Distinct) (p : LoadedPackage) :
    ((collect p).under answers).scope.Reveals (definedUnder answers p) := by
  refine Scope.reveals_definitions hanswers (distinct_scope hanswers p) p.name
    ⟨told_collect p answers, fun k a ha => ?_⟩
  match k with
  | .alias _ | .type _ | .const _ => cases ha

theorem nodup_methods (p : LoadedPackage) (answers : Answers) {d : TypeDef}
    (hd : d ∈ (definedUnder answers p).1.types) : (d.methods.map Method.name).Nodup := by
  obtain ⟨name, _, hrealizes⟩ := exists_mem_left (types_checkGo p answers) hd
  have hnames : d.methods.map Method.name = (p.attached.filter fun a =>
      a.receiver.base == name).map fun a => a.decl.name.text := by
    refine map_eq_map_of_forall₂ ?_ hrealizes.methods
    rintro a m ⟨signature, rfl⟩
    rfl
  have hkeys : ((p.attached.filter fun a => a.receiver.base == name).map Attachment.key).Nodup :=
    nodup_keys_firstsAfter.sublist (List.filter_sublist.map _)
  have hsame : (p.attached.filter fun a => a.receiver.base == name).map Attachment.key =
      ((p.attached.filter fun a => a.receiver.base == name).map fun a => a.decl.name.text).map
        fun text => (name, text) := by
    rw [List.map_map]
    refine List.map_congr_left fun a ha => ?_
    exact Prod.ext (beq_iff_eq.mp (List.mem_filter.mp ha).2) rfl
  rw [hnames]
  exact List.Nodup.of_map _ (hsame ▸ hkeys)

theorem distinct_checkGo {answers : Answers} (hanswers : answers.Distinct) (p : LoadedPackage) :
    (definedUnder answers p).1.Distinct := by
  have hreveals := reveals_checkGo hanswers p
  refine ⟨fun d hd => ?_, hreveals.consts⟩
  obtain ⟨_, _, hrendered⟩ := exists_mem_left hreveals.types hd
  exact ⟨hrendered.underlying, nodup_methods p answers hd, hrendered.signatures⟩

theorem attachments_collect (p : LoadedPackage) (answers : Answers) :
    ((collect p).under answers).scope.attachments = p.attachments := by
  unfold Scope.attachments LoadedPackage.attachments
  rw [placements_collect]

/-- No name is repeated in the outcome of a check if none is in the packages that it is told
about. -/
theorem unrepeated_checkGo {σ : Type} (p : LoadedPackage) (importer : String -> σ -> Answer × σ)
    (s : σ) (himporter : forall q t package, Inquiry.Asks importer q t (checkGo p) s ->
      (importer q t).1 = .ok package -> package.Distinct) :
    Unrepeated p ((checkGo p).run importer s).1 := by
  obtain ⟨answers, hrun, htold, hrest⟩ := Inquiry.under_of_run importer
    (fun q => .error (.packageNotFound q)) (checkGo p) s (once_checkGo p)
  have hanswers : answers.Distinct := by
    intro q package hq
    by_cases hasked : q ∈ (checkGo p).asked answers
    · obtain ⟨t, hasks, hanswer⟩ := htold q hasked
      exact himporter q t package hasks (hanswer.trans hq)
    · cases (hrest q hasked).symm.trans hq
  have hreveals := reveals_checkGo hanswers p
  rw [hrun, under_checkGo]
  constructor
  · exact distinct_checkGo hanswers p
  · refine ⟨((collect p).under answers).scope.types.entries, fun name t => ?_, ?_⟩
    · rw [Table.mem_entries_iff]
      exact get?_types_collect p answers
    · have htypes := hreveals.types.imp fun _ _ h => h.renders
      rw [Collection.path_collect, attachments_collect] at htypes
      exact htypes
  · have hrepeats := hreveals.repeats
    rw [placements_collect] at hrepeats
    exact hrepeats
  · have hfaults := (delivers_checkGo p answers).faults
    rw [placements_collect] at hfaults
    have hsublist : (Placement.faultsAfter [] p.placements).Sublist
        (definedUnder answers p).2.errors :=
      (hfaults ▸ List.sublist_append_right _ _ : List.Sublist _ _).trans List.filter_sublist
    exact (redeclarations_sublist [] p.placements).trans (hsublist.filter _)
  · intro answers fuel pending file tparams e before
    exact Scope.examined_resolveType _ answers fuel pending file tparams e before

def pairPackage : Package :=
  ⟨"d", "d", .system, none, false,
    Package.typeTable [⟨.declared "d" "Pair", .struct [⟨"A", .basic .int, none, false, "d"⟩,
      ⟨"B", .basic .string, none, false, "d"⟩], [], true, none⟩], [], [], none⟩

theorem distinct_pairPackage : pairPackage.Distinct := by
  refine ⟨fun name d hd => ?_, List.forall_mem_nil _⟩
  have hpair := (Table.get?_ofList_iff (by decide)).mp hd
  cases List.mem_singleton.mp hpair
  refine ⟨.struct (by decide) ?_, List.nodup_nil, List.forall_mem_nil _⟩
  exact List.forall_mem_cons.mpr ⟨.basic _, List.forall_mem_singleton.mpr (.basic _)⟩

def pairImporter (q : String) (n : Nat) : Answer × Nat :=
  (if q = "d" then .ok pairPackage else .error (.packageNotFound q), n + 1)

/-- Names are repeated among fields, embedded fields, nested fields, parameters and methods. -/
def crowdedPackage : LoadedPackage :=
  .ofText ("package p\n\nimport \"d\"\n\n" ++
    "type T struct \x7b\n\ta, b, a int\n\t*d.Pair\n\tPair struct\x7b x, x int \x7d\n" ++
    "\t_, _ bool\n\tc d.Pair\n\x7d\n\n" ++
    "type I interface \x7b\n\tM(q struct\x7b y, y int \x7d)\n\tM()\n\x7d\n\n" ++
    "func (T) N() \x7b\x7d\n\nfunc (*T) N(q struct\x7b z, z int \x7d) \x7b\x7d\n")

theorem unrepeated_checkGo_crowdedPackage :
    let o := ((checkGo crowdedPackage).run pairImporter 0).1
    (forall q t package, Inquiry.Asks pairImporter q t (checkGo crowdedPackage) 0 ->
      (pairImporter q t).1 = .ok package -> package.Distinct) ∧ Unrepeated crowdedPackage o ∧
    o.package.types.map (fun d => (d.underlying.text, d.methods.map Method.name)) =
      [("interface\x7bM(struct\x7by int\x7d)\x7d", []),
        ("struct\x7ba int; b int; *struct\x7bA int; B string\x7d; _ bool; _ bool; " ++
          "c struct\x7bA int; B string\x7d\x7d", ["N"])] ∧
    o.errors.map TypeError.text = ["a.go:20: z redeclared", "a.go:20: method T.N already declared",
      "a.go:14: y redeclared", "a.go:15: duplicate method M", "a.go:6: a redeclared",
      "a.go:8: x redeclared", "a.go:8: Pair redeclared"] := by
  have himporter : forall q t package,
      Inquiry.Asks pairImporter q t (checkGo crowdedPackage) 0 ->
        (pairImporter q t).1 = .ok package -> package.Distinct := by
    intro q t package _ hanswer
    unfold pairImporter at hanswer
    split at hanswer
    · cases hanswer
      exact distinct_pairPackage
    · cases hanswer
  exact ⟨himporter, unrepeated_checkGo crowdedPackage pairImporter 0 himporter, by decide +kernel⟩

end GoAtlas
