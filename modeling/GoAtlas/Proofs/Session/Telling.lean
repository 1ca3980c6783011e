import GoAtlas.Proofs.Check.Outcome
import GoAtlas.Proofs.Session.Nesting
import GoAtlas.Proofs.Session.Soundness

/-!
# What checks are told

With the Go checker no invariant ever breaks: the types of a package have names without a dot,
so the index, which has nothing of a package while its path is pending, accepts them.  Every
answer that a check is given can then be traced in the session: it is a remembered package, a
remembered failure, an invalid path or an import cycle.
-/

namespace GoAtlas
namespace Session

/-- A session of the Go checker whose requests cannot break an invariant. -/
structure Unbroken (s : Session) : Prop where
  checker : s.setup.checker = goChecker
  consistent : s.Consistent
  tidy : s.Tidy
  plain : forall path p name d, s.cache.get? path = some (.resolved p) ->
    p.kind.isSource = true -> p.type? name = some d -> Source.Plain name
  valid : forall path entry, s.cache.get? path = some entry -> Provenance.isValid path = true
  system : forall path p, s.cache.get? path = some (.resolved p) -> p.kind.isSource = false ->
    exists dir, p = systemPackage s.setup.registry path dir

def Room (bound : Nat) (s : Session) : Prop :=
  s.setup.tree.importBound < bound + s.pending.length

theorem Room.of_grows {bound : Nat} {s t : Session} (h : s.Room bound) (hst : Grows s t) :
    t.Room bound := by
  unfold Room
  rw [hst.setup, hst.pending]
  exact h

/-- How an answer for `q`, given while the paths of `pending` were pending, can be traced in the
session `t`. -/
inductive Told (pending : List String) (t : Session) (q : String) : Answer -> Prop where
  | known {p : Package} (hentry : t.cache.get? q = some (.resolved p)) :
      Told pending t q (.ok p)
  | absent {e : Error} (hentry : t.cache.get? q = some .absent) : Told pending t q (.error e)
  | failed {e : Error} {cause : String} (hentry : t.cache.get? q = some (.failed cause)) :
      Told pending t q (.error e)
  | misnamed {e : Error} (hinvalid : Provenance.isValid q = false) : Told pending t q (.error e)
  | cyclic (hpending : q ∈ pending) : Told pending t q (.error (.importCycle (pending ++ [q])))

theorem Told.of_grows {pending : List String} {t u : Session} {q : String} {a : Answer}
    (h : Told pending t q a) (htu : Grows t u) : Told pending u q a := by
  cases h with
  | known hentry => exact Told.known (htu.cached hentry)
  | absent hentry => exact Told.absent (htu.cached hentry)
  | failed hentry => exact Told.failed (htu.cached hentry)
  | misnamed hinvalid => exact Told.misnamed hinvalid
  | cyclic hpending => exact Told.cyclic hpending

namespace Unbroken

theorem congr {s t : Session} (h : s.Unbroken) (htidy : t.Tidy) (hsetup : t.setup = s.setup)
    (hcache : t.cache = s.cache) (hkinds : t.kinds = s.kinds) (hindex : t.index = s.index) :
    t.Unbroken where
  checker := hsetup ▸ h.checker
  consistent := h.consistent.congr hcache hkinds hindex
  tidy := htidy
  plain := by
    rw [hcache]
    exact h.plain
  valid := by
    rw [hcache]
    exact h.valid
  system := by
    rw [hcache, hsetup]
    exact h.system

theorem countRequest {s : Session} (h : s.Unbroken) : s.countRequest.Unbroken :=
  h.congr (h.tidy.of_grows (grows_countRequest s)) rfl rfl rfl rfl

theorem type_of_index {s : Session} (h : s.Unbroken) {path name : String}
    (hname : Source.Plain name) {d : TypeDef} (hd : s.index.get? (.declared path name) = some d) :
    exists p, s.cache.get? path = some (.resolved p) ∧ p.type? name = some d := by
  have hfull : d.name.full = (TypeName.declared path name).full := h.consistent.keys _ d hd
  have hmem : d ∈ s.index.definitions := Table.mem_values_iff.mpr ⟨_, hd⟩
  rcases h.consistent.mem_definitions_iff.mp hmem with ⟨other, p, hp, hsource, hvalue⟩
  rcases Table.mem_values_iff.mp hvalue with ⟨name', hname'⟩
  rw [h.consistent.types other p name' d hp hsource hname'] at hfull
  rcases TypeName.declared_eq_of_full_eq (h.plain other p name' d hp hsource hname') hname hfull
    with ⟨rfl, rfl⟩
  exact ⟨p, hp, hname'⟩

theorem index_get? {s : Session} (h : s.Unbroken) {path : String}
    (hnew : s.cache.get? path = none) {name : String} (hname : Source.Plain name) :
    s.index.get? (.declared path name) = none := by
  cases hd : s.index.get? (.declared path name) with
  | none => rfl
  | some d =>
      rcases h.type_of_index hname hd with ⟨p, hp, _⟩
      cases hnew.symm.trans hp

theorem accepts {s : Session} (h : s.Unbroken) {tree : FileTree} {tests : Bool} {dir : Path}
    {path : String} {source : LoadedPackage}
    (hload : Loading.load tree tests dir path = .ok source) (hpending : path ∈ s.pending)
    (answers : Answers) :
    s.index.Accepts path ((checkGo source).under answers).package.types := by
  have himport := Loading.importPath_of_load hload
  subst himport
  exact accepts_checkGo answers hload fun name hname =>
    h.index_get? (h.tidy.new _ hpending) hname

end Unbroken

/-!
# Checks
-/

def Telling (bound : Nat) (importer : Importer) : Prop :=
  forall q s, s.Unbroken -> s.Room bound ->
    (importer q s).2.Unbroken ∧ Told s.pending (importer q s).2 q.path (importer q s).1

theorem Growing.inDir {importer : Importer} (h : Growing importer) (dir : Path) (q : String)
    (s : Session) : Grows s (importer.inDir dir q s).2 :=
  h ⟨q, dir⟩ s

def Keeps (P : Session -> Prop) (s t : Session) : Prop :=
  P s -> P t

/-- A check goes as under fixed answers, all of which can be traced when it ends. -/
theorem told_of_check {bound : Nat} {importer : Importer} (hgrowing : Growing importer)
    (htelling : Telling bound importer) {source : LoadedPackage} {outcome : CheckOutcome}
    {s u : Session} (hs : s.Unbroken) (hroom : s.Room bound)
    (hcheck : (s.setup.checker source).run importer s = (outcome, u)) :
    u.Unbroken ∧ exists answers, outcome = (checkGo source).under answers ∧
      forall q, q ∈ (checkGo source).asked answers -> Told s.pending u q (answers q) ∧
        exists t, Inquiry.Asks (importer.inDir source.dir) q t (checkGo source) s := by
  rw [hs.checker, run_goChecker] at hcheck
  have hstep : forall q t, (t.Unbroken ∧ Grows s t) ->
      (importer.inDir source.dir q t).2.Unbroken ∧ Grows s (importer.inDir source.dir q t).2 :=
    fun q t ht => ⟨(htelling ⟨q, source.dir⟩ t ht.1 (hroom.of_grows ht.2)).1,
      ht.2.trans (hgrowing.inDir source.dir q t)⟩
  have hend := Inquiry.run_rel (R := Keeps fun t => t.Unbroken ∧ Grows s t) (fun _ h => h)
    (fun _ _ _ hst htu h => htu (hst h)) hstep (checkGo source) s ⟨hs, Grows.refl s⟩
  rw [hcheck] at hend
  refine ⟨hend.1, ?_⟩
  rcases Inquiry.under_of_run (importer.inDir source.dir) (fun q => .error (.packageNotFound q))
    (checkGo source) s (once_checkGo source) with ⟨answers, hunder, htold, _⟩
  rw [hcheck] at hunder
  refine ⟨answers, hunder, ?_⟩
  intro q hq
  rcases htold q hq with ⟨t, hasks, hanswer⟩
  have ht := hasks.rel (R := Keeps fun t => t.Unbroken ∧ Grows s t) (fun _ h => h)
    (fun _ _ _ hst htu h => htu (hst h)) hstep ⟨hs, Grows.refl s⟩
  have hafter := hasks.rel_end Grows.refl (fun _ _ _ => Grows.trans)
    (hgrowing.inDir source.dir)
  rw [hcheck] at hafter
  have hq : Told t.pending (importer.inDir source.dir q t).2 q (importer.inDir source.dir q t).1 :=
    (htelling ⟨q, source.dir⟩ t ht.1 (hroom.of_grows ht.2)).2
  rw [hanswer, ht.2.pending] at hq
  exact ⟨hq.of_grows hafter, t, hasks⟩

def checkStart (s : Session) (path : String) (kind : PackageKind) : Session :=
  ((s.recordKind path kind).enter path).countLoad.countCheck

/-- The check of a package with its path among the pending ones, under the answers it got. -/
structure Checked (importer : Importer) (path : String) (kind : PackageKind) (dir : Path)
    (s : Session) (source : LoadedPackage) (answers : Answers) (u : Session) : Prop where
  load : Loading.load s.setup.tree s.setup.options.includeTests dir path = .ok source
  run : (s.setup.checker source).run importer (s.checkStart path kind) =
    ((checkGo source).under answers, u)
  told : forall q, q ∈ (checkGo source).asked answers ->
    Told (s.pending ++ [path]) u q (answers q)
  asks : forall q, q ∈ (checkGo source).asked answers ->
    exists t, Inquiry.Asks (importer.inDir source.dir) q t (checkGo source) (s.checkStart path kind)
  unbroken : u.Unbroken

/-- How the request for a new path ends when nothing can break. -/
inductive Finds (importer : Importer) (path : String) (origin : Option Path)
    (s : Session) : Except Error (Option Package) -> Session -> Prop where
  | misnamed {e : Error} (hinvalid : Provenance.isValid path = false) :
      Finds importer path origin s (.error e) s
  | absent {found : Resolution}
      (hfound : Provenance.resolve s.setup.tree s.setup.roots path origin = .ok found)
      (hkind : effectiveKind s.setup.registry path found.kind = .absent) :
      Finds importer path origin s (.ok none)
        ((s.recordKind path .absent).remember path .absent)
  | system {found : Resolution}
      (hfound : Provenance.resolve s.setup.tree s.setup.roots path origin = .ok found)
      (hkind : effectiveKind s.setup.registry path found.kind = .system) :
      Finds importer path origin s
        (.ok (some (systemPackage s.setup.registry path found.dir)))
        ((s.recordKind path .system).remember path
          (.resolved (systemPackage s.setup.registry path found.dir)))
  | unreadable {kind : PackageKind} {dir : Path} {e : Error}
      (hsource : s.sourceOf? path origin = some (kind, dir))
      (hload : Loading.load s.setup.tree s.setup.options.includeTests dir path = .error e) :
      Finds importer path origin s (.error e)
        (((s.recordKind path kind).enter path).countLoad.leave.remember path (.failed e.message))
  | rejected {kind : PackageKind} {dir : Path} {source : LoadedPackage} {answers : Answers}
      {u : Session} {e : Error} (hsource : s.sourceOf? path origin = some (kind, dir))
      (hchecked : Checked importer path kind dir s source answers u)
      (hverdict : verdict s.setup.options path ((checkGo source).under answers) = .error e) :
      Finds importer path origin s (.error e)
        ((u.capture ((checkGo source).under answers).errors).leave.remember path
          (.failed e.message))
  | resolved {kind : PackageKind} {dir : Path} {source : LoadedPackage} {answers : Answers}
      {u : Session} {index : Index} (hsource : s.sourceOf? path origin = some (kind, dir))
      (hchecked : Checked importer path kind dir s source answers u)
      (hverdict : verdict s.setup.options path ((checkGo source).under answers) = .ok ())
      (hmerge : u.index.merge path ((checkGo source).under answers).package.types = .ok index) :
      Finds importer path origin s
        (.ok (some (Package.ofChecked path kind (some source)
          ((checkGo source).under answers).package)))
        ((leave { u.capture ((checkGo source).under answers).errors with index := index }).remember
          path (.resolved (Package.ofChecked path kind (some source)
            ((checkGo source).under answers).package)))

theorem isInvariant_of_load {t : FileTree} {tests : Bool} {dir : Path} {path : String} {e : Error}
    (h : Loading.load t tests dir path = .error e) : e.isInvariant = false := by
  unfold Loading.load at h
  split at h
  · cases h
    rfl
  · dsimp only at h
    split at h
    · cases h
      rfl
    · cases hname : Loading.choose dir
          ((Loading.parseFiles (Loading.wantedFiles t tests dir)).2.map fun s =>
            s.2.file.packageName) with
      | ok name =>
          rw [hname] at h
          cases h
      | error e' =>
          rw [hname] at h
          cases h
          unfold Loading.choose at hname
          split at hname
          · cases hname
            rfl
          · cases hname
          · split at hname
            · cases hname
            · cases hname
              rfl

theorem isInvariant_of_verdict {options : Options} {path : String} {outcome : CheckOutcome}
    {e : Error} (h : verdict options path outcome = .error e) : e.isInvariant = false := by
  unfold verdict at h
  split at h
  · split at h
    · cases h
    · cases h
      rfl
  · cases h

theorem isValid_of_resolve_error {t : FileTree} {roots : SearchRoots} {path : String}
    {origin : Option Path} {e : Error} (h : Provenance.resolve t roots path origin = .error e) :
    Provenance.isValid path = false := by
  unfold Provenance.resolve Provenance.validate at h
  by_cases hvalid : Provenance.isValid path = true
  · rw [if_pos hvalid] at h
    simp only [bind, Except.bind] at h
    split at h
    · cases h
    · cases h
  · exact eq_false_of_ne_true hvalid

section Opening

variable {bound : Nat} {importer : Importer} {path : String} {origin : Option Path}
  {kind : PackageKind} {dir : Path} {s t : Session}

theorem Unbroken.checkStart (hs : s.Unbroken) (hnew : ¬ s.Held path)
    (hsource : s.sourceOf? path origin = some (kind, dir)) :
    (s.checkStart path kind).Unbroken := by
  have htidy := tidy_opened hs.tidy hnew hsource
  exact
    { checker := hs.checker
      consistent := (hs.consistent.recordKind (not_held_iff.mp hnew).1 kind).congr rfl rfl rfl
      tidy := ⟨htidy.nodup, htidy.new, htidy.leads⟩
      plain := hs.plain
      valid := hs.valid
      system := hs.system }

theorem Room.checkStart (hroom : s.Room (bound + 1)) : (s.checkStart path kind).Room bound := by
  unfold Room at hroom ⊢
  show s.setup.tree.importBound < bound + (s.pending ++ [path]).length
  rw [List.length_append, List.length_singleton]
  omega

theorem checked_of_run (hgrowing : Growing importer) (htelling : Telling bound importer)
    (hs : s.Unbroken) (hroom : s.Room (bound + 1)) (hnew : ¬ s.Held path)
    (hsource : s.sourceOf? path origin = some (kind, dir)) {source : LoadedPackage}
    {outcome : CheckOutcome}
    (hload : Loading.load s.setup.tree s.setup.options.includeTests dir path = .ok source)
    (hcheck : (s.setup.checker source).run importer (s.checkStart path kind) =
      (outcome, t)) :
    exists answers, outcome = (checkGo source).under answers ∧
      Checked importer path kind dir s source answers t := by
  rcases told_of_check hgrowing htelling (hs.checkStart hnew hsource) hroom.checkStart hcheck with
    ⟨hunbroken, answers, rfl, htold⟩
  exact ⟨answers, rfl, hload, hcheck, fun q hq => (htold q hq).1, fun q hq => (htold q hq).2,
    hunbroken⟩

theorem Checked.mem_pending {source : LoadedPackage} {answers : Answers}
    (hgrowing : Growing importer) (h : Checked importer path kind dir s source answers t) :
    path ∈ t.pending := by
  have hgrows := grows_check hgrowing h.run
  rw [hgrows.pending]
  exact List.mem_append_right _ List.mem_cons_self

theorem finds_of_opens (hgrowing : Growing importer) (htelling : Telling bound importer)
    (hs : s.Unbroken) (hroom : s.Room (bound + 1)) (hnew : ¬ s.Held path)
    {r : Except Error (Option Package)} (h : Opens importer path origin s r t) :
    Finds importer path origin s r t := by
  -- The index accepts whatever the check of a pending package finds.
  have hmerges : forall {kind dir source answers u e},
      Checked importer path kind dir s source answers u ->
      u.index.merge path ((checkGo source).under answers).package.types ≠ .error e := by
    intro kind dir source answers u e hchecked herror
    have haccepts := hchecked.unbroken.accepts hchecked.load (hchecked.mem_pending hgrowing)
      answers
    cases (Index.merge_eq_ok_iff.mpr ⟨haccepts, rfl⟩).symm.trans herror
  cases h with
  | misnamed hfound => exact Finds.misnamed (isValid_of_resolve_error hfound)
  | absent hfound hkind => exact Finds.absent hfound hkind
  | system hfound hkind => exact Finds.system hfound hkind
  | broken hsource hrun hinvariant =>
      cases loads_of_run hrun with
      | unreadable hload =>
          rw [isInvariant_of_load hload] at hinvariant
          cases hinvariant
      | rejected hload hcheck hverdict =>
          rw [isInvariant_of_verdict hverdict] at hinvariant
          cases hinvariant
      | refused hload hcheck hverdict hmerge =>
          rcases checked_of_run hgrowing htelling hs hroom hnew hsource hload hcheck with
            ⟨answers, rfl, hchecked⟩
          exact absurd hmerge (hmerges hchecked)
  | failed hsource hrun hinvariant =>
      cases loads_of_run hrun with
      | unreadable hload => exact Finds.unreadable hsource hload
      | rejected hload hcheck hverdict =>
          rcases checked_of_run hgrowing htelling hs hroom hnew hsource hload hcheck with
            ⟨answers, rfl, hchecked⟩
          exact Finds.rejected hsource hchecked hverdict
      | refused hload hcheck hverdict hmerge =>
          rcases checked_of_run hgrowing htelling hs hroom hnew hsource hload hcheck with
            ⟨answers, rfl, hchecked⟩
          exact absurd hmerge (hmerges hchecked)
  | resolved hsource hrun =>
      cases loads_of_run hrun with
      | merged hload hcheck hverdict hmerge =>
          rcases checked_of_run hgrowing htelling hs hroom hnew hsource hload hcheck with
            ⟨answers, rfl, hchecked⟩
          exact Finds.resolved hsource hchecked hverdict hmerge

theorem Checked.setup {source : LoadedPackage} {answers : Answers} (hgrowing : Growing importer)
    (h : Checked importer path kind dir s source answers t) : t.setup = s.setup :=
  (grows_check hgrowing h.run).setup

inductive Enters (s : Session) (path : String) : CacheEntry -> Prop where
  | absent : Enters s path .absent
  | failed (cause : String) : Enters s path (.failed cause)
  | system (dir : Option Path) :
      Enters s path (.resolved (systemPackage s.setup.registry path dir))
  | checked {tree : FileTree} {tests : Bool} {kind : PackageKind} {dir : Path}
      {source : LoadedPackage} {index : Index} (answers : Answers)
      (hsource : kind.isSource = true)
      (hload : Loading.load tree tests dir path = .ok source)
      (haccepts : index.Accepts path ((checkGo source).under answers).package.types) :
      Enters s path (.resolved (Package.ofChecked path kind (some source)
        ((checkGo source).under answers).package))

/-- What is remembered after a request was remembered before, in a session that was not broken
either, or is the entry of the request. -/
theorem cached_of_finds (hgrowing : Growing importer) (hs : s.Unbroken)
    {r : Except Error (Option Package)} (h : Finds importer path origin s r t) {other : String}
    {entry : CacheEntry} (hentry : t.cache.get? other = some entry) :
    (exists u : Session, u.Unbroken ∧ u.setup = s.setup ∧ u.cache.get? other = some entry) ∨
      (other = path ∧ Provenance.isValid path = true ∧ Enters s path entry) := by
  cases h with
  | misnamed hinvalid => exact Or.inl ⟨s, hs, rfl, hentry⟩
  | absent hfound hkind =>
      rcases cached_of_remember hentry with ⟨hpath, rfl⟩ | hold
      · exact Or.inr ⟨hpath, Provenance.isValid_of_resolve hfound, Enters.absent⟩
      · exact Or.inl ⟨s, hs, rfl, hold⟩
  | @system found hfound hkind =>
      rcases cached_of_remember hentry with ⟨hpath, rfl⟩ | hold
      · exact Or.inr ⟨hpath, Provenance.isValid_of_resolve hfound, Enters.system found.dir⟩
      · exact Or.inl ⟨s, hs, rfl, hold⟩
  | unreadable hsource hload =>
      rcases cached_of_remember hentry with ⟨hpath, rfl⟩ | hold
      · exact Or.inr ⟨hpath, (isSource_of_sourceOf? hsource).2, Enters.failed _⟩
      · exact Or.inl ⟨s, hs, rfl, hold⟩
  | @rejected _ _ _ _ u _ hsource hchecked hverdict =>
      rcases cached_of_remember hentry with ⟨hpath, rfl⟩ | hold
      · exact Or.inr ⟨hpath, (isSource_of_sourceOf? hsource).2, Enters.failed _⟩
      · exact Or.inl ⟨u, hchecked.unbroken, hchecked.setup hgrowing, hold⟩
  | @resolved _ _ _ answers u _ hsource hchecked hverdict hmerge =>
      rcases cached_of_remember hentry with ⟨hpath, rfl⟩ | hold
      · rcases isSource_of_sourceOf? hsource with ⟨hkind, hvalid⟩
        exact Or.inr ⟨hpath, hvalid, Enters.checked answers hkind hchecked.load
          (Index.merge_eq_ok_iff.mp hmerge).1⟩
      · exact Or.inl ⟨u, hchecked.unbroken, hchecked.setup hgrowing, hold⟩

theorem unbroken_of_finds (hgrowing : Growing importer) (hs : s.Unbroken)
    {r : Except Error (Option Package)} (h : Finds importer path origin s r t)
    (hsetup : t.setup = s.setup) (hconsistent : t.Consistent) (htidy : t.Tidy) : t.Unbroken where
  checker := hsetup ▸ hs.checker
  consistent := hconsistent
  tidy := htidy
  plain other p name d hp hsource hd := by
    rcases cached_of_finds hgrowing hs h hp with ⟨u, hu, _, hold⟩ | ⟨_, hvalid, henters⟩
    · exact hu.plain other p name d hold hsource hd
    · cases henters with
      | system dir =>
          rw [kind_systemPackage] at hsource
          cases hsource
      | checked answers _ hload haccepts =>
          rcases (Package.get?_typeTable_iff (Provenance.ne_empty_of_isValid hvalid)
            haccepts).mp hd with ⟨hmem, hname⟩
          rcases plain_of_mem_types answers hload hmem with ⟨name', hname', hplain⟩
          cases hname.symm.trans hname'
          exact hplain
  valid other entry hentry := by
    rcases cached_of_finds hgrowing hs h hentry with ⟨u, hu, _, hold⟩ | ⟨rfl, hvalid, _⟩
    · exact hu.valid other entry hold
    · exact hvalid
  system other p hp hother := by
    rw [hsetup]
    rcases cached_of_finds hgrowing hs h hp with ⟨u, hu, hsame, hold⟩ | ⟨rfl, _, henters⟩
    · rw [← hsame]
      exact hu.system other p hold hother
    · cases henters with
      | system dir => exact ⟨dir, rfl⟩
      | checked answers hsource hload haccepts => cases hsource.symm.trans hother

theorem told_of_finds {r : Except Error (Option Package)}
    (h : Finds importer path origin s r t) : Told s.pending t path (answer path r) := by
  cases h with
  | misnamed hinvalid => exact Told.misnamed hinvalid
  | absent hfound hkind => exact Told.absent (Table.get?_insert_self _ _ _)
  | system hfound hkind => exact Told.known (Table.get?_insert_self _ _ _)
  | unreadable hsource hload => exact Told.failed (Table.get?_insert_self _ _ _)
  | rejected hsource hchecked hverdict => exact Told.failed (Table.get?_insert_self _ _ _)
  | resolved hsource hchecked hverdict hmerge => exact Told.known (Table.get?_insert_self _ _ _)

end Opening

/-!
# Requests
-/

theorem told_of_cached {path : String} {entry : CacheEntry} {t : Session}
    (h : t.cache.get? path = some entry) (pending : List String) :
    Told pending t path (answer path (remembered path entry)) := by
  cases entry with
  | resolved p => exact Told.known h
  | absent => exact Told.absent h
  | failed cause => exact Told.failed h

theorem Tidy.not_room_zero {s : Session} (h : s.Tidy) : ¬ s.Room 0 := by
  have hle := h.length_le
  unfold Room
  omega

theorem unbroken_of_requests {bound : Nat}
    (himporter : forall n, n < bound -> Telling n (importerWithin n)) {path : String}
    {origin : Option Path} {s t : Session} {r : Except Error (Option Package)}
    (hs : s.Unbroken) (hroom : s.Room bound) (h : Requests path origin s bound r t) :
    t.Unbroken ∧ Told s.pending t path (answer path r) := by
  have hgrows := grows_of_requests (fun n _ => growing_importerWithin n) h
  have htidy := hs.tidy.of_grows hgrows
  have hconsistent := consistent_of_requests (fun n _ => keeping_importerWithin n) hs.consistent h
  cases h with
  | @cached _ entry hentry =>
      have hstill : s.countRequest.countHit.cache.get? path = some entry := hentry
      exact ⟨hs.congr htidy rfl rfl rfl rfl, told_of_cached hstill _⟩
  | cyclic hnew hpending => exact ⟨hs.congr htidy rfl rfl rfl rfl, Told.cyclic hpending⟩
  | exhausted hnew => exact absurd hroom hs.tidy.not_room_zero
  | @opened bound _ _ hnew hopens =>
      have hcounted : s.countRequest.Unbroken := hs.countRequest
      have hfinds := finds_of_opens (growing_importerWithin bound)
        (himporter bound (Nat.lt_succ_self bound)) hcounted hroom hnew hopens
      have htold : Told s.countRequest.pending t path (answer path r) := told_of_finds hfinds
      exact ⟨unbroken_of_finds (growing_importerWithin bound) hcounted hfinds hgrows.setup
        hconsistent htidy, htold⟩

theorem telling_importerWithin (bound : Nat) : Telling bound (importerWithin bound) := by
  induction bound using Nat.strongRecOn with
  | ind bound ih =>
      intro q s hs hroom
      exact unbroken_of_requests ih hs hroom (requests_of_run rfl)

theorem unbroken_start {setup : Setup} (h : setup.checker = goChecker) :
    (start setup).Unbroken where
  checker := h
  consistent := Consistent.start setup
  tidy := Tidy.of_idle rfl
  plain _ _ _ _ hp := by cases hp
  valid _ _ hentry := by cases hentry
  system _ _ hp := by cases hp

end Session
end GoAtlas
