import GoAtlas.Proofs.Session.Reports
import GoAtlas.Proofs.Session.Telling
import Mathlib.Data.Fintype.Lattice
import Mathlib.Data.Fintype.Order

/-!
# Import cycles

Packages are ranked by the order in which their checks end.  An import of a package from sources
either ends before it or its own check is told why not, so along a cycle of imports some package
complains about the next one: where the rank is least.  Imports of `unsafe` need no package and
are left out.
-/

namespace GoAtlas
namespace Session

/-!
# Ranks
-/

/-- What became of the import `q` of the resolved package at `path`. -/
inductive Accounted (rank : String -> Nat) (log : List Report) (s : Session) (path q : String) :
    Prop where
  | before {p : Package} (hentry : s.cache.get? q = some (.resolved p))
      (hrank : rank q < rank path)
  | lost {entry : CacheEntry} (hallowed : s.setup.options.allowHardErrors = true)
      (hentry : s.cache.get? q = some entry) (hlost : forall p, entry ≠ .resolved p)
  | misnamed (hallowed : s.setup.options.allowHardErrors = true)
      (hinvalid : Provenance.isValid q = false)
  | cyclic {r : Report} {e : TypeError} {front : List String}
      (hallowed : s.setup.options.allowHardErrors = true) (hr : r ∈ log) (hpath : r.path = path)
      (he : e ∈ r.errors)
      (hcomplaint : e.complaint = .failedImport q (.importCycle (front ++ [path, q])))
      (hhard : e.isSoft = false)

/-- There is a rank for the packages from sources by which all their imports are accounted
for. -/
def Ranked (log : List Report) (s : Session) : Prop :=
  exists (rank : String -> Nat) (top : Nat), (forall path, rank path < top) ∧
    forall path p q, s.cache.get? path = some (.resolved p) -> p.kind.isSource = true ->
      q ∈ p.imports -> q ≠ "unsafe" -> Accounted rank log s path q

theorem ranked_start (setup : Setup) : Ranked [] (start setup) := by
  refine ⟨fun _ => 0, 1, fun _ => Nat.one_pos, ?_⟩
  intro path p q hp
  cases hp

section Entering

variable {rank other : String -> Nat} {log more : List Report} {s t : Session} {path q : String}

theorem Accounted.mono (h : Accounted rank log s path q) (hsetup : t.setup = s.setup)
    (hcached : forall x entry, s.cache.get? x = some entry -> t.cache.get? x = some entry)
    (hlog : log ⊆ more)
    (hrank : forall x entry, s.cache.get? x = some entry -> other x = rank x)
    {entry : CacheEntry} (hpath : s.cache.get? path = some entry) :
    Accounted other more t path q := by
  have hallowed : s.setup.options.allowHardErrors = true ->
      t.setup.options.allowHardErrors = true := by
    rw [hsetup]
    exact id
  cases h with
  | before hentry hless =>
      refine Accounted.before (hcached q _ hentry) ?_
      rw [hrank q _ hentry, hrank path _ hpath]
      exact hless
  | lost hall hentry hlost => exact Accounted.lost (hallowed hall) (hcached q _ hentry) hlost
  | misnamed hall hinvalid => exact Accounted.misnamed (hallowed hall) hinvalid
  | cyclic hall hr hreport he hcomplaint hhard =>
      exact Accounted.cyclic (hallowed hall) (hlog hr) hreport he hcomplaint hhard

theorem Ranked.congr (h : Ranked log s) (hsetup : t.setup = s.setup)
    (hcache : t.cache = s.cache) : Ranked log t := by
  rcases h with ⟨rank, top, htop, haccounted⟩
  refine ⟨rank, top, htop, ?_⟩
  intro path p q hp hsource hq hne
  rw [hcache] at hp
  refine (haccounted path p q hp hsource hq hne).mono hsetup ?_ (List.Subset.refl _)
    (fun _ _ _ => rfl) hp
  rw [hcache]
  exact fun _ _ h => h

/-- A new entry is ranked above all others. -/
theorem Ranked.remember {entry : CacheEntry} (h : Ranked log s) (hnew : ¬ s.Held path)
    (hlog : log ⊆ more)
    (hentry : forall rank p, (forall x e, s.cache.get? x = some e -> rank x < rank path) ->
      entry = .resolved p -> p.kind.isSource = true -> forall q, q ∈ p.imports ->
        q ≠ "unsafe" -> Accounted rank more (s.remember path entry) path q) :
    Ranked more (s.remember path entry) := by
  rcases h with ⟨rank, top, htop, haccounted⟩
  have hcache := (not_held_iff.mp hnew).1
  have hold : forall x e, s.cache.get? x = some e -> x ≠ path := by
    intro x e he heq
    subst heq
    cases hcache.symm.trans he
  have hrank : forall x e, s.cache.get? x = some e ->
      Function.update rank path top x = rank x :=
    fun x e he => Function.update_of_ne (hold x e he) _ _
  have hself : Function.update rank path top path = top := Function.update_self _ _ _
  refine ⟨Function.update rank path top, top + 1, ?_, ?_⟩
  · intro x
    by_cases heq : x = path
    · rw [heq, hself]
      exact Nat.lt_succ_self top
    · rw [Function.update_of_ne heq]
      exact (htop x).trans (Nat.lt_succ_self top)
  · intro x p q hp hsource hq hne
    rcases cached_of_remember hp with ⟨rfl, heq⟩ | hp
    · refine hentry _ p ?_ heq hsource q hq hne
      intro y e he
      rw [hrank y e he, hself]
      exact htop y
    · exact (haccounted x p q hp hsource hq hne).mono rfl
        (fun _ _ => (grows_remember hnew entry).cached) hlog hrank hp

end Entering

/-!
# Requests
-/

def Records (P : Session -> Prop) (s t : Session) (log : List Report) : Prop :=
  s.Unbroken -> P s ->
    t.Unbroken ∧ P t ∧ forall before, Ranked before s -> Ranked (before ++ log) t

theorem chained_records (P : Session -> Prop) : Chained (Records P) where
  refl s hs hP := by
    refine ⟨hs, hP, ?_⟩
    intro before h
    rw [List.append_nil]
    exact h
  trans s t u log more hst htu hs hP := by
    rcases hst hs hP with ⟨ht, hP', hlog⟩
    rcases htu ht hP' with ⟨hu, hP'', hmore⟩
    refine ⟨hu, hP'', ?_⟩
    intro before h
    rw [← List.append_assoc]
    exact hmore _ (hlog _ h)

theorem sourceOf?_of_invalid {s : Session} {path : String} {origin : Option Path}
    (h : Provenance.isValid path = false) : s.sourceOf? path origin = none := by
  cases hsource : s.sourceOf? path origin with
  | none => rfl
  | some found => cases h.symm.trans (isSource_of_sourceOf? hsource).2

section Checking

variable {bound : Nat} {importer : Importer}
  {nested : Request -> Session -> List Report} {path : String} {origin : Option Path}
  {kind : PackageKind} {dir : Path} {source : LoadedPackage} {answers : Answers} {s t : Session}
  {before : List Report}

theorem Checked.reports (h : Checked importer path kind dir s source answers t) :
    loadReports importer nested path dir ((s.recordKind path kind).enter path) =
      (s.setup.checker source).notes importer nested
        (s.checkStart path kind) ++ [⟨path, ((checkGo source).under answers).errors⟩] :=
  loadReports_of_checked (s := (s.recordKind path kind).enter path) h.load h.run

theorem ranked_of_checked
    (himporter : forall q s, Records (Room bound) s (importer q s).2 (nested q s))
    (hs : s.Unbroken) (hroom : s.Room (bound + 1)) (hnew : ¬ s.Held path)
    (hsource : s.sourceOf? path origin = some (kind, dir)) (hranked : Ranked before s)
    (h : Checked importer path kind dir s source answers t) :
    Ranked (before ++ (s.setup.checker source).notes importer nested
      (s.checkStart path kind)) (t.capture ((checkGo source).under answers).errors).leave := by
  have hstart : Ranked before (s.checkStart path kind) := hranked.congr rfl rfl
  have hrecords := (chained_records (Room bound)).notes himporter h.run (hs.checkStart hnew hsource)
    hroom.checkStart
  exact (hrecords.2.2 before hstart).congr rfl rfl

theorem accounted_of_checked {rank : String -> Nat} {log : List Report} {u : Session}
    (h : Checked importer path kind dir s source answers t)
    (hverdict : verdict s.setup.options path ((checkGo source).under answers) = .ok ())
    (hsetup : u.setup = s.setup)
    (hcached : forall x entry, t.cache.get? x = some entry -> u.cache.get? x = some entry)
    (hrank : forall x entry, t.cache.get? x = some entry -> rank x < rank path)
    (hlog : ⟨path, ((checkGo source).under answers).errors⟩ ∈ log) {q : String}
    (hq : q ∈ ((checkGo source).under answers).package.imports) (hne : q ≠ "unsafe") :
    Accounted rank log u path q := by
  have hwritten := mem_imports_checkGo.mp hq
  have htold := h.told q (asked_collect_subset (asked_of_mem_imports hwritten hne))
  -- A failed import is a hard complaint, so the package was accepted in spite of it.
  have hfault : forall e, answers q = .error e -> u.setup.options.allowHardErrors = true ∧
      exists c, c ∈ ((checkGo source).under answers).errors ∧
        c.complaint = .failedImport q e ∧ c.isSoft = false := by
    intro e he
    rcases complaint_of_failed_import hwritten hne he with ⟨c, hc, hcomplaint, hhard⟩
    refine ⟨?_, c, hc, hcomplaint, hhard⟩
    rw [hsetup]
    exact allowHardErrors_of_verdict hverdict ⟨c, hc, hhard⟩
  generalize hanswer : answers q = answer at htold
  cases htold with
  | known hentry => exact Accounted.before (hcached q _ hentry) (hrank q _ hentry)
  | absent hentry =>
      exact Accounted.lost (hfault _ hanswer).1 (hcached q _ hentry) fun p h => by cases h
  | failed hentry =>
      exact Accounted.lost (hfault _ hanswer).1 (hcached q _ hentry) fun p h => by cases h
  | misnamed hinvalid => exact Accounted.misnamed (hfault _ hanswer).1 hinvalid
  | cyclic hpending =>
      rcases hfault _ hanswer with ⟨hallowed, c, hc, hcomplaint, hhard⟩
      rw [List.append_assoc] at hcomplaint
      exact Accounted.cyclic hallowed hlog rfl hc hcomplaint hhard

theorem ranked_of_finds (hgrowing : Growing importer)
    (himporter : forall q s, Records (Room bound) s (importer q s).2 (nested q s))
    (hs : s.Unbroken) (hroom : s.Room (bound + 1)) (hnew : ¬ s.Held path)
    {r : Except Error (Option Package)} (h : Finds importer path origin s r t)
    (hranked : Ranked before s) :
    Ranked (before ++ match s.sourceOf? path origin with
      | some (kind, dir) =>
          loadReports importer nested path dir ((s.recordKind path kind).enter path)
      | none => []) t := by
  have hfront : forall log : List Report, before ⊆ before ++ log :=
    fun log => List.subset_append_left before log
  cases h with
  | misnamed hinvalid =>
      rw [sourceOf?_of_invalid hinvalid, List.append_nil]
      exact hranked
  | absent hfound hkind =>
      rw [sourceOf?_of_other hfound hkind rfl]
      refine (hranked.congr (t := s.recordKind path .absent) rfl rfl).remember hnew (hfront _) ?_
      intro _ p _ hp
      cases hp
  | system hfound hkind =>
      rw [sourceOf?_of_other hfound hkind rfl]
      refine (hranked.congr (t := s.recordKind path .system) rfl rfl).remember hnew (hfront _) ?_
      intro _ p _ hp hsource
      cases hp
      rw [kind_systemPackage] at hsource
      cases hsource
  | @unreadable kind dir _ hsource hload =>
      have hentered : Entered s path kind ((s.recordKind path kind).enter path).countLoad :=
        entered_of_grows hnew (grows_countLoad _)
      rw [hsource]
      dsimp only
      rw [loadReports_of_unreadable (s := (s.recordKind path kind).enter path) hload]
      refine Ranked.remember (hranked.congr rfl rfl) hentered.new (hfront _) ?_
      intro _ p _ hp
      cases hp
  | rejected hsource hchecked hverdict =>
      have hentered := entered_check hgrowing hnew hchecked.run
      rw [hsource]
      dsimp only
      rw [hchecked.reports, ← List.append_assoc]
      refine (ranked_of_checked himporter hs hroom hnew hsource hranked hchecked).remember
        hentered.new (List.subset_append_left _ _) ?_
      intro _ p _ hp
      cases hp
  | @resolved kind dir source answers u index hsource hchecked hverdict hmerge =>
      have hentered := entered_check hgrowing hnew hchecked.run
      rw [hsource]
      dsimp only
      rw [hchecked.reports, ← List.append_assoc]
      have hmerged := (ranked_of_checked himporter hs hroom hnew hsource hranked hchecked).congr
        (t := leave { u.capture ((checkGo source).under answers).errors with index := index })
        rfl rfl
      refine hmerged.remember hentered.new (List.subset_append_left _ _) ?_
      intro rank p hrank hp _ q hq hne
      cases hp
      refine accounted_of_checked hchecked hverdict ?_ ?_ hrank
        (List.mem_append_right _ List.mem_cons_self) hq hne
      · have hsetup : u.setup = s.setup := hchecked.setup hgrowing
        exact hsetup
      · intro x entry hx
        exact (grows_remember hentered.new _).cached hx

end Checking

theorem records_of_requests {bound : Nat}
    (himporter : forall n, n < bound -> forall q s,
      Records (Room n) s (importerWithin n q s).2 (reportsWithin n q.path (some q.dir) s))
    {path : String} {origin : Option Path} {s t : Session} {r : Except Error (Option Package)}
    (h : Requests path origin s bound r t) :
    Records (Room bound) s t (reportsWithin bound path origin s) := by
  intro hs hroom
  have hgrows := grows_of_requests (fun n _ => growing_importerWithin n) h
  have hunbroken := (unbroken_of_requests (fun n _ => telling_importerWithin n) hs hroom h).1
  refine ⟨hunbroken, hroom.of_grows hgrows, ?_⟩
  intro before hranked
  cases h with
  | @cached _ entry hentry =>
      rw [reportsWithin_of_held (Or.inl ⟨entry, hentry⟩), List.append_nil]
      exact hranked.congr rfl rfl
  | cyclic hnew hpending =>
      rw [reportsWithin_of_held (Or.inr hpending), List.append_nil]
      exact hranked.congr rfl rfl
  | exhausted hnew => exact absurd hroom hs.tidy.not_room_zero
  | @opened bound _ _ hnew hopens =>
      have hcounted : s.countRequest.Unbroken := hs.countRequest
      have hfinds := finds_of_opens (growing_importerWithin bound) (telling_importerWithin bound)
        hcounted hroom hnew hopens
      rw [reportsWithin_of_new hnew]
      exact ranked_of_finds (growing_importerWithin bound)
        (himporter bound (Nat.lt_succ_self bound)) hcounted hroom hnew hfinds
        (hranked.congr rfl rfl)

theorem records_importerWithin (bound : Nat) (q : Request) (s : Session) :
    Records (Room bound) s (importerWithin bound q s).2
      (reportsWithin bound q.path (some q.dir) s) := by
  induction bound using Nat.strongRecOn generalizing q s with
  | ind bound ih => exact records_of_requests ih (requests_of_run rfl)

theorem records_afterRequest (s : Session) (path : String) (origin : Option Path) :
    Records (fun _ => True) s (s.afterRequest path origin)
      (reportsWithin (s.setup.tree.importBound + 1) path origin s) := by
  intro hs _
  have hroom : s.Room (s.setup.tree.importBound + 1) := by
    unfold Room
    omega
  have hrequests : Requests path origin s (s.setup.tree.importBound + 1)
      ((resolveFrom path origin).run s).1 (s.afterRequest path origin) := by
    apply requests_of_run
    rw [← run_resolveFrom]
    rfl
  rcases records_of_requests (fun n _ => records_importerWithin n) hrequests hs hroom with
    ⟨hunbroken, _, hranked⟩
  exact ⟨hunbroken, trivial, hranked⟩

theorem ranked_after (setup : Setup) (hchecker : setup.checker = goChecker) (ops : List Operation) :
    (after setup ops).Unbroken ∧ Ranked (reports setup ops) (after setup ops) := by
  rcases (chained_records fun _ => True).after records_afterRequest setup ops
    (unbroken_start hchecker) trivial with ⟨hunbroken, _, hranked⟩
  exact ⟨hunbroken, hranked [] (ranked_start setup)⟩

/-!
# Cycles
-/

def FromSources (s : Session) (path : String) : Prop :=
  exists p, s.cache.get? path = some (.resolved p) ∧ p.kind.isSource = true

def Imports (s : Session) (path q : String) : Prop :=
  exists p, s.cache.get? path = some (.resolved p) ∧ q ∈ p.imports ∧ q ≠ "unsafe"

end Session

def Registry.IsImportFree (registry : Registry) : Prop :=
  forall path model, registry.get? path = some model -> model.imports = []

theorem Registry.isImportFree_standard : standard.IsImportFree := by
  intro path model h
  unfold standard at h
  rw [Table.get?_ofList_iff (by decide)] at h
  simp only [List.mem_cons, List.not_mem_nil, or_false, Prod.mk.injEq] at h
  rcases h with ⟨rfl, rfl⟩ | ⟨rfl, rfl⟩ | ⟨rfl, rfl⟩ | ⟨rfl, rfl⟩ | ⟨rfl, rfl⟩
  · rfl
  · rfl
  · rfl
  · rfl
  · rfl

namespace Session

theorem Unbroken.fromSources_of_imports {s : Session} (hs : s.Unbroken)
    (hregistry : s.setup.registry.IsImportFree) {path q : String} (h : s.Imports path q) :
    s.FromSources path := by
  rcases h with ⟨p, hp, hq, _⟩
  cases hsource : p.kind.isSource with
  | true => exact ⟨p, hp, hsource⟩
  | false =>
      rcases hs.system path p hp hsource with ⟨dir, rfl⟩
      unfold systemPackage at hq
      cases hmodel : s.setup.registry.get? path with
      | none =>
          rw [hmodel] at hq
          cases hq
      | some model =>
          rw [hmodel] at hq
          have hnone : q ∈ ([] : List String) := hregistry path model hmodel ▸ hq
          cases hnone

theorem accounted_of_imports {s : Session} {rank : String -> Nat} {log : List Report}
    (haccounted : forall path p q, s.cache.get? path = some (.resolved p) ->
      p.kind.isSource = true -> q ∈ p.imports -> q ≠ "unsafe" -> Accounted rank log s path q)
    {path q : String} (hpath : s.FromSources path) (h : s.Imports path q) :
    Accounted rank log s path q := by
  rcases hpath with ⟨p, hp, hsource⟩
  rcases h with ⟨p', hp', hq, hne⟩
  cases hp.symm.trans hp'
  exact haccounted path p q hp hsource hq hne

/-- Where the rank is least, the package on a cycle complains about the next one. -/
theorem exists_cyclic {s : Session} (hs : s.Unbroken) {log : List Report} (hranked : Ranked log s)
    {n : Nat} {paths : Fin (n + 1) -> String} (hsources : forall i, s.FromSources (paths i))
    (himports : forall i, s.Imports (paths i) (paths (i + 1))) :
    s.setup.options.allowHardErrors = true ∧
      exists (i : Fin (n + 1)) (r : Report) (e : TypeError) (front : List String),
        r ∈ log ∧ r.path = paths i ∧ e ∈ r.errors ∧ e.isSoft = false ∧
        e.complaint =
          .failedImport (paths (i + 1)) (.importCycle (front ++ [paths i, paths (i + 1)])) := by
  rcases hranked with ⟨rank, top, _, haccounted⟩
  rcases Finite.exists_min fun i => rank (paths i) with ⟨i, hleast⟩
  rcases hsources (i + 1) with ⟨p, hp, _⟩
  cases accounted_of_imports haccounted (hsources i) (himports i) with
  | before hentry hrank => exact absurd hrank (Nat.not_lt.mpr (hleast (i + 1)))
  | lost hall hentry hlost =>
      cases hentry.symm.trans hp
      exact absurd rfl (hlost p)
  | misnamed hall hinvalid => cases hinvalid.symm.trans (hs.valid _ _ hp)
  | cyclic hall hr hpath he hcomplaint hhard =>
      exact ⟨hall, i, _, _, _, hr, hpath, he, hhard, hcomplaint⟩

/-- How import cycles come to light. -/
structure CyclesNoticed (setup : Setup) (ops : List Operation) : Prop where
  /-- On every cycle of packages from sources, one of them reports that the next one could not
  be imported because of the cycle. -/
  reported : forall (n : Nat) (paths : Fin (n + 1) -> String),
    (forall i, (after setup ops).FromSources (paths i)) ->
    (forall i, (after setup ops).Imports (paths i) (paths (i + 1))) ->
    exists (i : Fin (n + 1)) (r : Report) (e : TypeError) (front : List String),
      r ∈ reports setup ops ∧ r.path = paths i ∧ e ∈ r.errors ∧ e.isSoft = false ∧
      e.complaint =
        .failedImport (paths (i + 1)) (.importCycle (front ++ [paths i, paths (i + 1)]))
  captured : (after setup ops).captured = (reports setup ops).flatMap fun r => r.errors
  /-- Where hard errors are not allowed, all imports are resolved. -/
  resolved : setup.options.allowHardErrors = false -> forall path q,
    (after setup ops).FromSources path ∨ setup.registry.IsImportFree ->
    (after setup ops).Imports path q ->
    exists p, (after setup ops).cache.get? q = some (.resolved p)
  /-- Where hard errors are not allowed, there are no cycles. -/
  acyclic : setup.options.allowHardErrors = false ->
    forall (n : Nat) (paths : Fin (n + 1) -> String),
    (forall i, (after setup ops).FromSources (paths i)) ∨ setup.registry.IsImportFree ->
    ¬ forall i, (after setup ops).Imports (paths i) (paths (i + 1))

theorem cyclesNoticed_after (tree : FileTree) (roots : SearchRoots) (options : Options)
    (registry : Registry) (ops : List Operation) :
    CyclesNoticed ⟨tree, roots, options, goChecker, registry⟩ ops := by
  rcases ranked_after ⟨tree, roots, options, goChecker, registry⟩ rfl ops with ⟨hunbroken, hranked⟩
  have hsetup := setup_after ⟨tree, roots, options, goChecker, registry⟩ ops
  have hsources : forall path q, (after ⟨tree, roots, options, goChecker, registry⟩ ops).FromSources
      path ∨ registry.IsImportFree ->
      (after ⟨tree, roots, options, goChecker, registry⟩ ops).Imports path q ->
      (after ⟨tree, roots, options, goChecker, registry⟩ ops).FromSources path := by
    rintro path q (hpath | hregistry) himports
    · exact hpath
    · refine hunbroken.fromSources_of_imports ?_ himports
      rw [hsetup]
      exact hregistry
  constructor
  · intro n paths hpaths himports
    exact (exists_cyclic hunbroken hranked hpaths himports).2
  · exact captured_after _ ops
  · intro hstrict path q hpath himports
    rcases hranked with ⟨rank, top, _, haccounted⟩
    have hnot : ¬ (after ⟨tree, roots, options, goChecker, registry⟩
        ops).setup.options.allowHardErrors = true := by
      rw [hsetup]
      exact ne_true_of_eq_false hstrict
    cases accounted_of_imports haccounted (hsources path q hpath himports) himports with
    | before hentry hrank => exact ⟨_, hentry⟩
    | lost hall hentry hlost => exact absurd hall hnot
    | misnamed hall hinvalid => exact absurd hall hnot
    | cyclic hall hr hreport he hcomplaint hhard => exact absurd hall hnot
  · intro hstrict n paths hpaths himports
    have hfrom : forall i, (after ⟨tree, roots, options, goChecker, registry⟩ ops).FromSources
        (paths i) := by
      intro i
      refine hsources (paths i) (paths (i + 1)) ?_ (himports i)
      rcases hpaths with hall | hregistry
      · exact Or.inl (hall i)
      · exact Or.inr hregistry
    have hallowed := (exists_cyclic hunbroken hranked hfrom himports).1
    rw [hsetup] at hallowed
    cases hstrict.symm.trans hallowed

/-- A package of the workspace at the path `unsafe`, which imports that path. -/
def selfTree : FileTree :=
  ⟨[(["w", "unsafe", "u.go"], Text.encode "package unsafe\n\nimport _ \"unsafe\"\n")], [], []⟩

def selfRoots : SearchRoots := ⟨some ⟨"/w"⟩, none, "vendor"⟩

def selfSession (allowed : Bool) : Session :=
  after ⟨selfTree, selfRoots, ⟨false, allowed⟩, goChecker, Registry.standard⟩ [.resolve "unsafe"]

def looseSession : Session :=
  after ⟨selfTree, selfRoots, ⟨false, false⟩, goChecker,
    Table.ofList [("x", { CheckedPackage.bare "x" with imports := ["y"] })]⟩ [.resolve "x"]

/-- With imports of `unsafe`, and with imports of models, cycles and missing packages would go
unnoticed under either policy. -/
theorem unnoticed_self_import :
    (forall allowed,
      ((selfSession allowed).packages.map fun p => (p.path, p.kind, p.imports)) =
        [("unsafe", .user, ["unsafe"])] ∧ (selfSession allowed).captured.length = 0) ∧
    (looseSession.packages.map fun p => (p.path, p.kind, p.imports)) = [("x", .system, ["y"])] ∧
      (looseSession.cache.get? "y").isNone = true := by
  decide +kernel

end Session
end GoAtlas
