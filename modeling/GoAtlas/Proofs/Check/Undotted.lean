import GoAtlas.Proofs.Check.Neat

/-!
# Names without a dot

The types that a check finds have no dot in their names if no name in the packages that the check
is told about has one.
-/

namespace GoAtlas
namespace Scope

variable {answers : Answers} {sc : Scope} {links : Links}

/-!
# Links
-/

theorem neat_aliasBody (hanswers : answers.Undotted) (hsc : sc.Undotted)
    (hlinks : NeatLinks answers sc links) {name : String} {d : TypeDecl}
    (hd : sc.types.get? name = some d) : Neat answers (sc.aliasBody links d) GoType.Undotted :=
  neat_resolveType ⟨hanswers, hsc, hlinks⟩ d.file d.spec.params d.spec.type (hsc.specs name d hd)

theorem neatLinks_linksWithin (hanswers : answers.Undotted) (hsc : sc.Undotted) (fuel : Nat)
    (pending : List Pending) : NeatLinks answers sc (sc.linksWithin fuel pending) := by
  -- The links of a declaration have less fuel; what they find is recorded.
  induction fuel generalizing pending with
  | zero =>
      exact
        { aliased := fun _ => Neat.pure undotted_invalid
          underlying := fun _ => Neat.pure undotted_invalid
          const := fun _ => Neat.pure trivial
          steps := steps_worded (fun _ => rfl) sc 0 pending }
  | succ fuel ih =>
      have hcomplained : forall (p : Progress) file line complaint, p.Undotted ->
          (p.complained file line false complaint).Undotted :=
        fun _ _ _ _ hp => ⟨hp.packages, hp.aliases, hp.underlying⟩
      refine ⟨?_, ?_, ?_, steps_worded (fun _ => rfl) sc (fuel + 1) pending⟩
      · intro name p hp
        refine follow_cases (k := .alias name) (P := fun r => r.1.Undotted ∧ r.2.Undotted)
          (fun type hknown => ⟨hp.aliases name type hknown, hp⟩) (fun _ => ⟨undotted_invalid, hp⟩)
          (fun d _ _ => ⟨undotted_invalid, hcomplained p _ _ _ hp⟩) ?_
        intro d hd _
        obtain ⟨decl, hdecl, rfl⟩ := Option.map_eq_some_iff.mp hd
        obtain ⟨htype, hend⟩ := neat_aliasBody hanswers hsc (ih _) hdecl p hp
        exact ⟨htype, hend.packages, Table.forall_get?_insert hend.aliases htype, hend.underlying⟩
      · intro name p hp
        refine follow_cases (k := .type name) (P := fun r => r.1.Undotted ∧ r.2.Undotted)
          (fun type hknown => ⟨hp.underlying name type hknown, hp⟩)
          (fun _ => ⟨undotted_invalid, hp⟩)
          (fun d _ _ => ⟨undotted_invalid, hcomplained p _ _ _ hp⟩) ?_
        intro d hd _
        obtain ⟨decl, hdecl, rfl⟩ := Option.map_eq_some_iff.mp hd
        obtain ⟨htype, hend⟩ := (neat_aliasBody hanswers hsc (ih _) hdecl).bind
          (fun _ htype => neat_underlyingWithin hanswers (ih _) chainLimit htype) p hp
        exact ⟨htype, hend.packages, hend.aliases, Table.forall_get?_insert hend.underlying htype⟩
      · intro i p hp
        refine follow_cases (k := .const i) (P := fun r => True ∧ r.2.Undotted)
          (fun _ _ => ⟨trivial, hp⟩) (fun _ => ⟨trivial, hp⟩)
          (fun d _ _ => ⟨trivial, hcomplained p _ _ _ hp⟩) ?_
        intro d hd _
        obtain ⟨decl, _, rfl⟩ := Option.map_eq_some_iff.mp hd
        have hend := (Neat.of_tracks (tracks_constBody_same (Tracking.lawful_undotted hanswers)
          (ih (.const i :: pending)).tracked decl) p hp).2
        exact ⟨trivial, hend.packages, hend.aliases, hend.underlying⟩

/-!
# Definitions
-/

theorem neat_typeDefWith (hsc : sc.Undotted) (hlinks : NeatLinks answers sc links)
    (methods : Table (List Method)) {name : String} {d : TypeDecl}
    (hd : sc.types.get? name = some d) :
    Neat answers (sc.typeDefWith links methods name d) TypeDef.Undotted := by
  have hname : (GoType.named (.declared sc.path name)).Undotted :=
    GoType.within_declared_iff.mpr (hsc.names name d hd)
  unfold typeDefWith
  dsimp only
  split
  · exact (hlinks.aliased name).bind fun _ htype => Neat.pure ⟨hname, htype⟩
  · exact (hlinks.underlying name).bind fun _ htype => Neat.pure ⟨hname, htype⟩

theorem neat_definitions (hanswers : answers.Undotted) (hsc : sc.Undotted) (name : String) :
    Neat answers (sc.definitions name)
      fun package => forall d, d ∈ package.types -> d.Undotted := by
  have hT := Tracking.lawful_undotted hanswers
  have hlinks : NeatLinks answers sc sc.links :=
    neatLinks_linksWithin hanswers hsc sc.linkDepth []
  rw [definitions_eq]
  refine (Neat.of_tracks (Tracks.foldlM sc.methods
    (tracks_checkMethodWith hT hlinks.tracked) _)).bind fun methods _ => ?_
  refine (Neat.mapM fun entry hentry => neat_typeDefWith hsc hlinks methods
    (Table.mem_entries_iff.mp hentry)).bind fun types htypes => ?_
  refine (Neat.mapM (Q := fun _ => True) fun entry _ => ?_).bind fun consts _ => ?_
  · refine (hlinks.const entry.2).bind fun value _ => ?_
    split
    · exact Neat.pure trivial
    · exact Neat.pure trivial
  · exact (Neat.of_tracks (tracks_checkImports hT sc)).bind fun _ _ => Neat.pure htypes

end Scope

/-!
# The scope of a package
-/

namespace FileScope

def Undotted (f : FileScope) : Prop :=
  forall b package, (exists label, f.imports.get? label = some b) ∨ b ∈ f.dots ->
    b.package = some package -> package.Undotted

theorem undotted_ofQualifiers (qualifiers : List String) : (ofQualifiers qualifiers).Undotted := by
  rintro b package (⟨label, hlabel⟩ | hdot)
  · cases hlabel
  · cases hdot

theorem Undotted.add {f : FileScope} (h : f.Undotted) {b : Binding}
    (hb : forall package, b.package = some package -> package.Undotted)
    (label : Option Source.ImportLabel) (line : Nat) : (f.add label b line).Undotted := by
  have hnamed : forall name named,
      Undotted { f with imports := f.imports.insert name b, named := named } := by
    rintro name named other package (⟨l, hl⟩ | hdot)
    · exact Table.forall_get?_insert
        (P := fun _ b => forall package, b.package = some package -> package.Undotted)
        (fun l b hl package => h b package (Or.inl ⟨l, hl⟩)) hb l other hl package
    · exact h other package (Or.inr hdot)
  unfold FileScope.add
  dsimp only
  split
  · rintro other package (hlabel | hdot)
    · exact h other package (Or.inl hlabel)
    · rcases List.mem_append.mp hdot with hold | hnew
      · exact h other package (Or.inr hold)
      · rw [List.mem_singleton.mp hnew]
        exact hb package
  · exact h
  · exact hnamed _ _
  · exact hnamed _ _

end FileScope

namespace Collection

/-- The packages that were imported so far have undotted names. -/
structure Undotted (c : Collection) : Prop where
  packages : forall path package, c.packages.get? path = some (some package) -> package.Undotted
  files : forall file, (c.scope.fileScope file).Undotted

variable {answers : Answers} {c : Collection}

theorem Undotted.bindingOf (h : c.Undotted) (hanswers : answers.Undotted) {path : String}
    {package : Package} (hp : (c.bindingOf answers path).package = some package) :
    package.Undotted := by
  unfold Collection.bindingOf Collection.packageOf at hp
  dsimp only at hp
  split at hp
  · cases hp
  · cases hknown : c.packages.get? path with
    | none =>
        rw [hknown] at hp
        exact undotted_of_answer hanswers hp
    | some known =>
        rw [hknown] at hp
        exact h.packages path package (hknown.trans (congrArg some hp))

theorem Undotted.bound (h : c.Undotted) (hanswers : answers.Undotted) (file : String) (line : Nat)
    (path : String) : (c.bound answers file line path).Undotted := by
  constructor
  · unfold Collection.bound
    split
    · exact h.packages
    · unfold Collection.learn
      split
      · exact h.packages
      · exact undotted_insert hanswers h.packages path
  · intro other
    rw [scope_bound]
    exact h.files other

theorem Undotted.apply (h : c.Undotted) (hanswers : answers.Undotted) (i : Item) :
    (i.apply answers c).Undotted := by
  cases i with
  | opening file qualifiers =>
      refine ⟨h.packages, fun other => ?_⟩
      rw [Item.apply, scope_updateScope, Scope.fileScope_updateFile]
      split
      · exact FileScope.undotted_ofQualifiers qualifiers
      · exact h.files other
  | binding file line label path =>
      have hbound := h.bound hanswers file line path
      have hledger := ((c.bound answers file line path).addBinding_spec file line label
        (c.bindingOf answers path)).1
      refine ⟨fun q package hq => ?_, fun other => ?_⟩
      · have hsame := congrArg (fun l => l.packages.get? q) hledger
        exact hbound.packages q package (hsame.symm.trans hq)
      · rw [Item.apply, fileScope_addBinding]
        split
        · exact (hbound.files file).add (fun _ hp => h.bindingOf hanswers hp) label line
        · exact hbound.files other
  | fault file line complaint => exact ⟨h.packages, h.files⟩
  | claim file x what =>
      simp only [Item.apply]
      split
      · exact h
      · split
        · exact ⟨h.packages, h.files⟩
        · cases what with
          | type spec => exact ⟨h.packages, h.files⟩
          | const spec type expr iota => exact ⟨h.packages, h.files⟩
          | other => exact ⟨h.packages, h.files⟩
  | method m => exact ⟨h.packages, h.files⟩

theorem undotted_collect (hanswers : answers.Undotted) (p : LoadedPackage) :
    ((collect p).under answers).Undotted := by
  rw [under_collect_eq]
  refine Item.applyAll_induction ?_ fun i c _ h => h.apply hanswers i
  exact ⟨fun _ _ h => (by cases h), fun _ => FileScope.undotted_ofQualifiers []⟩

end Collection

/-!
# The whole check
-/

section Checks

variable {t : FileTree} {tests : Bool} {dir : Path} {path : String} {p : LoadedPackage}
  {answers : Answers}

theorem undotted_scope (hanswers : answers.Undotted)
    (h : Loading.load t tests dir path = .ok p) :
    ((collect p).under answers).scope.Undotted := by
  have hfiles := (Collection.undotted_collect hanswers p).files
  constructor
  · intro file label b package hb
    exact hfiles file b package (Or.inl ⟨label, hb⟩)
  · intro file b package hb
    exact hfiles file b package (Or.inr hb)
  · intro name d hd
    obtain ⟨x, hitem, rfl⟩ := Collection.declares_collect p answers name d hd
    exact plain_of_mem_items h hitem
  · intro name d hd
    obtain ⟨x, hitem, rfl⟩ := Collection.declares_collect p answers name d hd
    exact (spec_of_mem_items (fun _ _ _ hread hd => Source.File.plainNames_of_read hread hd) h
      hitem).1

theorem undotted_checkGo (hanswers : answers.Undotted)
    (h : Loading.load t tests dir path = .ok p) {d : TypeDef}
    (hd : d ∈ ((checkGo p).under answers).package.types) : d.Undotted := by
  have hfirst := Collection.undotted_collect hanswers p
  have hsecond := Scope.neat_definitions hanswers (undotted_scope hanswers h) p.name
    ((collect p).under answers).progress
    ⟨hfirst.packages, fun _ _ h => (by cases h), fun _ _ h => (by cases h)⟩
  rw [under_checkGo] at hd
  exact hsecond.1 d hd

theorem undotted_of_asked (h : Loading.load t tests dir path = .ok p)
    (hasked : forall q package, q ∈ (checkGo p).asked answers -> answers q = .ok package ->
      package.Undotted)
    {d : TypeDef} (hd : d ∈ ((checkGo p).under answers).package.types) : d.Undotted := by
  classical
  let other : Answers := fun q =>
    if q ∈ (checkGo p).asked answers then answers q else .error (.packageNotFound q)
  have hsame := Inquiry.under_congr answers other (checkGo p) fun q hq => if_pos hq
  have hother : other.Undotted := by
    intro q package hq
    by_cases hmem : q ∈ (checkGo p).asked answers
    · exact hasked q package hmem ((if_pos hmem).symm.trans hq)
    · cases (if_neg hmem).symm.trans hq
  exact undotted_checkGo hother h (hsame.1.symm ▸ hd)

end Checks
end GoAtlas
