import GoAtlas.Proofs.Check.Go

/-!
# Sound sessions

With the Go checker and the standard models, every package that a session resolves is closed.
A check relies on the packages it is told about, which were resolved before, and its own package
is remembered only if all complaints about it are tolerated.
-/

namespace GoAtlas

theorem Loading.importPath_of_load {t : FileTree} {tests : Bool} {dir : Path} {path : String}
    {source : LoadedPackage} (h : load t tests dir path = .ok source) :
    source.importPath = path := by
  unfold load at h
  split at h
  · cases h
  · dsimp only at h
    split at h
    · cases h
    · cases hname : choose dir
          ((parseFiles (wantedFiles t tests dir)).2.map fun s => s.2.file.packageName) with
      | error e =>
          rw [hname] at h
          cases h
      | ok name =>
          rw [hname] at h
          cases h
          rfl

namespace Session

theorem allowHardErrors_of_verdict {options : Options} {path : String} {outcome : CheckOutcome}
    (h : verdict options path outcome = .ok ()) (hcomplained : Complained outcome.errors) :
    options.allowHardErrors = true := by
  rcases hcomplained with ⟨e, he, hhard⟩
  unfold verdict CheckOutcome.firstHard? at h
  split at h
  · split at h
    · next hallowed => exact hallowed
    · cases h
  · next hnone =>
      have hsoft := List.find?_eq_none.mp hnone e he
      rw [hhard] at hsoft
      exact absurd rfl hsoft

/-!
# The package of a check
-/

theorem closed_of_checks {s t : Session} {sc : Scope} {progress : Progress}
    {checked : CheckedPackage} {index : Index} {path : String} {p : Package}
    (hchecks : sc.Checks (progress, s) checked) (hscope : sc.path = path)
    (hexcused : Complained progress.errors -> t.Excused) (hst : Retains s t)
    (hpath : path ≠ "") (haccepts : index.Accepts path checked.types)
    (hp : t.cache.get? path = some (.resolved p)) (hhome : p.path = path)
    (htypes : p.types = Package.typeTable checked.types) (hconsts : p.consts = checked.consts)
    (htrusted : p.isOpaque = false) (hsource : p.kind.isSource = true) : t.Closed path p := by
  have htype : forall name d,
      p.type? name = some d ↔ d ∈ checked.types ∧ d.name = .declared path name := by
    intro name d
    unfold Package.type?
    rw [htypes]
    exact Package.get?_typeTable_iff hpath haccepts
  have hallowed : forall leaf : GoType,
      leaf.Allowed (Complained progress.errors ∨ s.Excused)
        (fun package name => sc.Declares package name ∨ s.Knows package name) ->
      leaf.Allowed t.Excused t.Knows := by
    intro leaf hleaf
    refine hleaf.mono ?_ ?_
    · rintro (hcomplained | hold)
      · exact hexcused hcomplained
      · exact hold.retains hst
    · rintro package name (⟨rfl, decl, hdecl, halias⟩ | hold)
      -- A name of the package itself leads to the definition of its declaration.
      · rcases hchecks.declared name decl hdecl with ⟨d, hd, hdefines⟩
        rw [hscope]
        refine ⟨p, hp, Or.inr ⟨d, (htype name d).mpr ⟨hd, ?_⟩, ?_⟩⟩
        · rw [hdefines.name, hscope]
        · rw [hdefines.isAlias, halias]
      · exact hold.retains hst
  exact
    { home := hhome
      names := fun name d hd => ((htype name d).mp hd).2
      types := by
        intro name d hd leaf hleaf
        rcases hchecks.types d ((htype name d).mp hd).1 with ⟨_, _, hdefines⟩
        exact hallowed leaf (hdefines.fine leaf hleaf)
      shapes := by
        intro name d hd
        rcases hchecks.types d ((htype name d).mp hd).1 with ⟨_, _, hdefines⟩
        exact hdefines.shaped
      consts := by
        intro c hc leaf hleaf
        exact hallowed leaf (hchecks.consts c (hconsts ▸ hc) leaf hleaf)
      trusted := by
        intro htrue
        rw [htrusted] at htrue
        cases htrue
      plain := by
        intro hother
        rw [hsource] at hother
        cases hother }

theorem checking_of_new {s : Session} {path : String} {kind : PackageKind} (h : s.Sound)
    (hnew : ¬ s.Held path) :
    ((s.recordKind path kind).enter path).countLoad.countCheck.Checking path where
  sound := h.congr rfl rfl
  new := (not_held_iff.mp hnew).1
  pending := List.mem_append_right _ List.mem_cons_self

def Reliable (importer : Importer) : Prop :=
  forall dir, Answering (importer.inDir dir)

theorem checks_of_run {importer : Importer} (himporter : Reliable importer)
    {path : String} {kind : PackageKind} {dir : Path} {source : LoadedPackage}
    {outcome : CheckOutcome} {s t : Session} (hsound : s.Sound) (hnew : ¬ s.Held path)
    (hload : Loading.load s.setup.tree s.setup.options.includeTests dir path = .ok source)
    (hcheck : (s.setup.checker source).run importer
      ((s.recordKind path kind).enter path).countLoad.countCheck = (outcome, t)) :
    t.Sound ∧ exists (sc : Scope) (progress : Progress), sc.path = path ∧
      progress.errors = outcome.errors ∧ sc.Checks (progress, t) outcome.package := by
  have himport := Loading.importPath_of_load hload
  subst himport
  rw [hsound.checker, run_goChecker] at hcheck
  exact (checkGo_spec (himporter source.dir) (checking_of_new hsound hnew) hcheck).1

theorem sound_of_loads_error {importer : Importer} (himporter : Reliable importer)
    {path : String} {kind : PackageKind} {dir : Path} {s t : Session} {e : Error}
    (hsound : s.Sound) (hnew : ¬ s.Held path)
    (h : Loads importer path kind dir ((s.recordKind path kind).enter path) (.error e) t) :
    t.leave.Sound := by
  cases h with
  | unreadable hload => exact hsound.congr rfl rfl
  | rejected hload hcheck hverdict =>
      exact (checks_of_run himporter hsound hnew hload hcheck).1.congr rfl rfl
  | refused hload hcheck hverdict hmerge =>
      exact (checks_of_run himporter hsound hnew hload hcheck).1.congr rfl rfl

theorem sound_of_loads_ok {importer : Importer} (hgrowing : Growing importer)
    (himporter : Reliable importer) {path : String} {kind : PackageKind} {dir : Path}
    {s t : Session} {p : Package} (hsound : s.Sound) (hnew : ¬ s.Held path)
    (hpath : path ≠ "") (hkind : kind.isSource = true)
    (h : Loads importer path kind dir ((s.recordKind path kind).enter path) (.ok p) t) :
    (t.leave.remember path (.resolved p)).Sound := by
  have hentered := entered_of_loads hgrowing hnew h
  cases h with
  | @merged source outcome u index hload hcheck hverdict hmerge =>
      rcases checks_of_run himporter hsound hnew hload hcheck with
        ⟨hchecked, sc, progress, hscope, herrors, hchecks⟩
      rcases Index.merge_eq_ok_iff.mp hmerge with ⟨haccepts, _⟩
      refine hchecked.remember (not_held_iff.mp hentered.new).1 rfl rfl ?_
      rintro p ⟨⟩ hretains
      have hexcused : Complained progress.errors -> Excused
          (Session.remember path
            (.resolved (Package.ofChecked path kind (some source) outcome.package))
            (leave { u.capture outcome.errors with index := index })) := by
        intro hcomplained
        have hsetup : u.setup = s.setup := hentered.grows.setup
        have hallowed := allowHardErrors_of_verdict hverdict (herrors ▸ hcomplained)
        apply Or.inl
        show u.setup.options.allowHardErrors = true
        rw [hsetup]
        exact hallowed
      exact closed_of_checks hchecks hscope hexcused hretains hpath haccepts
        (Table.get?_insert_self _ _ _) rfl rfl rfl rfl hkind

/-!
# Whole requests
-/

theorem sound_of_opens {importer : Importer} (hgrowing : Growing importer)
    (himporter : Reliable importer) {path : String} {origin : Option Path} {s t : Session}
    {r : Except Error (Option Package)} (hsound : s.Sound) (hnew : ¬ s.Held path)
    (h : Opens importer path origin s r t) : t.Sound := by
  have hcache := (not_held_iff.mp hnew).1
  cases h with
  | misnamed hfound => exact hsound
  | absent hfound hkind =>
      refine hsound.remember hcache rfl rfl ?_
      intro p hp
      cases hp
  | system hfound hkind =>
      rw [hsound.registry]
      refine hsound.remember hcache rfl rfl ?_
      rintro p ⟨⟩ _
      exact closed_systemPackage (Table.get?_insert_self _ _ _)
  | broken hsource hload hinvariant =>
      exact sound_of_loads_error himporter hsound hnew (loads_of_run hload)
  | failed hsource hload hinvariant =>
      have hentered := entered_of_loads hgrowing hnew (loads_of_run hload)
      have herror := sound_of_loads_error himporter hsound hnew (loads_of_run hload)
      refine herror.remember (not_held_iff.mp hentered.new).1 rfl rfl ?_
      intro p hp
      cases hp
  | resolved hsource hload =>
      rcases isSource_of_sourceOf? hsource with ⟨hkind, hvalid⟩
      exact sound_of_loads_ok hgrowing himporter hsound hnew
        (Provenance.ne_empty_of_isValid hvalid) hkind (loads_of_run hload)

theorem sound_of_requests {bound : Nat}
    (himporter : forall n, n < bound -> Reliable (importerWithin n)) {path : String}
    {origin : Option Path} {s t : Session} {r : Except Error (Option Package)}
    (hsound : s.Sound) (h : Requests path origin s bound r t) : t.Sound := by
  cases h with
  | cached hentry => exact hsound.congr rfl rfl
  | cyclic hnew hpending => exact hsound.congr rfl rfl
  | exhausted hnew => exact hsound.congr rfl rfl
  | @opened bound _ _ hnew hopens =>
      have hcounted : s.countRequest.Sound := hsound.congr rfl rfl
      exact sound_of_opens (growing_importerWithin bound)
        (himporter bound (Nat.lt_succ_self bound)) hcounted hnew hopens

theorem resolved_of_remembered {path : String} {entry : CacheEntry} {p : Package}
    (h : remembered path entry = .ok (some p)) : entry = .resolved p := by
  cases entry with
  | resolved q =>
      cases h
      rfl
  | absent => cases h
  | failed cause => cases h

theorem cached_of_opens {importer : Importer} {path : String} {origin : Option Path}
    {s t : Session} {p : Package} (h : Opens importer path origin s (.ok (some p)) t) :
    t.cache.get? path = some (.resolved p) := by
  cases h with
  | system hfound hkind => exact Table.get?_insert_self _ _ _
  | resolved hsource hload => exact Table.get?_insert_self _ _ _

theorem cached_of_requests {bound : Nat} {path : String} {origin : Option Path}
    {s t : Session} {r : Except Error (Option Package)} {p : Package}
    (h : Requests path origin s bound r t) (hr : r = .ok (some p)) :
    t.cache.get? path = some (.resolved p) := by
  cases h with
  | @cached _ entry hentry =>
      rw [resolved_of_remembered hr] at hentry
      exact hentry
  | cyclic hnew hpending => cases hr
  | exhausted hnew => cases hr
  | opened hnew hopens =>
      subst hr
      exact cached_of_opens hopens

theorem ok_of_answer {path : String} {r : Except Error (Option Package)} {p : Package}
    (h : answer path r = .ok p) : r = .ok (some p) := by
  unfold answer at h
  split at h
  · cases h
    rfl
  · cases h
  · cases h

theorem reliable_importerWithin (bound : Nat) : Reliable (importerWithin bound) := by
  induction bound using Nat.strongRecOn with
  | ind bound ih =>
      intro dir
      exact
        { grows := fun q => growing_importerWithin bound ⟨q, dir⟩
          sound := fun q s hsound => sound_of_requests ih hsound (requests_of_run rfl)
          told := by
            intro q s p hp
            exact cached_of_requests (requests_of_run rfl) (ok_of_answer hp)
          known := by
            intro q s p hp
            unfold Importer.inDir importerWithin
            rw [run_resolveWithin_cached hp]
            rfl }

theorem sound_afterRequest (s : Session) (path : String) (origin : Option Path)
    (h : s.Sound) : (s.afterRequest path origin).Sound := by
  unfold afterRequest
  rw [run_resolveFrom]
  exact sound_of_requests (fun n _ => reliable_importerWithin n) h (requests_of_run rfl)

/-- The sessions of the Go checker with the standard models. -/
def goSetup (tree : FileTree) (roots : SearchRoots) (options : Options) : Setup :=
  ⟨tree, roots, options, goChecker, Registry.standard⟩

theorem sound_after (tree : FileTree) (roots : SearchRoots) (options : Options)
    (ops : List Operation) : (after (goSetup tree roots options) ops).Sound :=
  after_induction (sound_start rfl rfl) sound_afterRequest ops

end Session
end GoAtlas
