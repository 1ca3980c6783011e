import GoAtlas.Session

/-!
# The ways a request ends

Every exit of a request is listed once, with the session it leaves behind.  `Loads` lists the
exits of loading and checking a package, `Opens` those of a path that is neither remembered nor
pending, and `Requests` those of a request at some depth of nesting.  Later modules reason
about sessions by cases on these relations and never unfold the actions again.
-/

namespace GoAtlas

namespace PackageKind

/-- Packages of these kinds are loaded from their sources and checked. -/
def isSource : PackageKind -> Bool
  | vendored => true
  | user => true
  | _ => false

end PackageKind

namespace Provenance

theorem dir_of_resolve {t : FileTree} {roots : SearchRoots} {path : String}
    {origin : Option Path} {found : Resolution}
    (h : resolve t roots path origin = .ok found) (hkind : found.kind ≠ .absent) :
    exists dir, found.dir = some dir := by
  unfold resolve at h
  cases hvalid : validate path with
  | error e =>
      rw [hvalid] at h
      cases h
  | ok u =>
      rw [hvalid] at h
      simp only [bind, Except.bind] at h
      split at h
      · next kind dir _ =>
          cases h
          exact ⟨dir, rfl⟩
      · cases h
        exact absurd rfl hkind

theorem isValid_of_resolve {t : FileTree} {roots : SearchRoots} {path : String}
    {origin : Option Path} {found : Resolution}
    (h : resolve t roots path origin = .ok found) : isValid path = true := by
  unfold resolve validate at h
  by_cases hvalid : isValid path = true
  · exact hvalid
  · rw [if_neg hvalid] at h
    cases h

theorem ne_empty_of_isValid {path : String} (h : isValid path = true) : path ≠ "" := by
  intro heq
  subst heq
  revert h
  decide

end Provenance

namespace Session

/-!
# Running actions
-/

section Running

variable {α β : Type}

theorem run_modify_bind (f : Session -> Session) (g : Unit -> Action α) (s : Session) :
    (modify f >>= g : Action α).run s = (g ()).run (f s) := rfl

theorem run_get_bind (g : Session -> Action α) (s : Session) :
    (get >>= g : Action α).run s = (g s).run s := rfl

theorem run_lift_bind_ok {x : Except Error α} {a : α} (h : x = .ok a) (g : α -> Action β)
    (s : Session) : (liftM x >>= g : Action β).run s = (g a).run s := by
  subst h
  rfl

theorem run_lift_bind_error {x : Except Error α} {e : Error} (h : x = .error e)
    (g : α -> Action β) (s : Session) : (liftM x >>= g : Action β).run s = (.error e, s) := by
  subst h
  rfl

theorem run_bind_ok {x : Action α} {f : α -> Action β} {s t : Session} {a : α}
    (h : x.run s = (.ok a, t)) : (x >>= f).run s = (f a).run t := by
  show ExceptT.bindCont f (x.run s).1 (x.run s).2 = (f a).run t
  rw [h]
  rfl

theorem run_bind_error {x : Action α} {f : α -> Action β} {s t : Session} {e : Error}
    (h : x.run s = (.error e, t)) : (x >>= f).run s = (.error e, t) := by
  show ExceptT.bindCont f (x.run s).1 (x.run s).2 = (.error e, t)
  rw [h]
  rfl

end Running

/-!
# Loading and checking
-/

inductive Loads (importer : Importer) (path : String) (kind : PackageKind) (dir : Path)
    (s : Session) : Except Error Package -> Session -> Prop where
  | unreadable {e : Error}
      (hload : Loading.load s.setup.tree s.setup.options.includeTests dir path = .error e) :
      Loads importer path kind dir s (.error e) s.countLoad
  | rejected {source : LoadedPackage} {outcome : CheckOutcome} {t : Session} {e : Error}
      (hload : Loading.load s.setup.tree s.setup.options.includeTests dir path = .ok source)
      (hcheck : (s.setup.checker source).run importer s.countLoad.countCheck =
        (outcome, t))
      (hverdict : verdict s.setup.options path outcome = .error e) :
      Loads importer path kind dir s (.error e) (t.capture outcome.errors)
  | refused {source : LoadedPackage} {outcome : CheckOutcome} {t : Session} {e : Error}
      (hload : Loading.load s.setup.tree s.setup.options.includeTests dir path = .ok source)
      (hcheck : (s.setup.checker source).run importer s.countLoad.countCheck =
        (outcome, t))
      (hverdict : verdict s.setup.options path outcome = .ok ())
      (hmerge : t.index.merge path outcome.package.types = .error e) :
      Loads importer path kind dir s (.error e) (t.capture outcome.errors)
  | merged {source : LoadedPackage} {outcome : CheckOutcome} {t : Session} {index : Index}
      (hload : Loading.load s.setup.tree s.setup.options.includeTests dir path = .ok source)
      (hcheck : (s.setup.checker source).run importer s.countLoad.countCheck =
        (outcome, t))
      (hverdict : verdict s.setup.options path outcome = .ok ())
      (hmerge : t.index.merge path outcome.package.types = .ok index) :
      Loads importer path kind dir s
        (.ok (Package.ofChecked path kind (some source) outcome.package))
        { t.capture outcome.errors with index := index }

theorem run_check {importer : Importer} {source : LoadedPackage} {s t : Session}
    {outcome : CheckOutcome}
    (h : (s.setup.checker source).run importer s.countCheck = (outcome, t)) :
    (check importer source).run s = (.ok outcome, t) := by
  show (Except.ok ((s.setup.checker source).run importer s.countCheck).1,
    ((s.setup.checker source).run importer s.countCheck).2) = (.ok outcome, t)
  rw [h]

theorem run_indexTypes (path : String) (types : List TypeDef) (s : Session) :
    (indexTypes path types).run s =
      match s.index.merge path types with
      | .ok index => (.ok (), { s with index := index })
      | .error e => (.error e, s) := by
  show ExceptT.run (match s.index.merge path types with
    | .ok index => (set { s with index := index } : Action Unit)
    | .error e => throw e) s = _
  cases s.index.merge path types with
  | ok index => rfl
  | error e => rfl

theorem loads_of_run {importer : Importer} {path : String} {kind : PackageKind}
    {dir : Path} {s t : Session} {r : Except Error Package}
    (h : (loadAndCheck importer path kind dir).run s = (r, t)) :
    Loads importer path kind dir s r t := by
  unfold loadAndCheck at h
  rw [run_modify_bind, run_get_bind] at h
  change (liftM (Loading.load s.setup.tree s.setup.options.includeTests dir path) >>= _ :
    Action Package).run _ = _ at h
  cases hload : Loading.load s.setup.tree s.setup.options.includeTests dir path with
  | error e =>
      rw [run_lift_bind_error hload] at h
      cases h
      exact Loads.unreadable hload
  | ok source =>
      rw [run_lift_bind_ok hload] at h
      rcases hcheck : (s.setup.checker source).run importer
        s.countLoad.countCheck with ⟨outcome, u⟩
      rw [run_bind_ok (run_check (s := s.countLoad) hcheck), run_modify_bind] at h
      change (liftM (verdict s.setup.options path outcome) >>= _ : Action Package).run _ = _ at h
      cases hverdict : verdict s.setup.options path outcome with
      | error e =>
          rw [run_lift_bind_error hverdict] at h
          cases h
          exact Loads.rejected hload hcheck hverdict
      | ok v =>
          rw [run_lift_bind_ok hverdict] at h
          have hindex := run_indexTypes path outcome.package.types (u.capture outcome.errors)
          cases hmerge : u.index.merge path outcome.package.types with
          | error e =>
              rw [show (u.capture outcome.errors).index = u.index from rfl, hmerge] at hindex
              rw [run_bind_error hindex] at h
              cases h
              exact Loads.refused hload hcheck hverdict hmerge
          | ok index =>
              rw [show (u.capture outcome.errors).index = u.index from rfl, hmerge] at hindex
              rw [run_bind_ok hindex] at h
              cases h
              exact Loads.merged hload hcheck hverdict hmerge

/-!
# New paths
-/

def sourceOf? (s : Session) (path : String) (origin : Option Path) :
    Option (PackageKind × Path) :=
  match Provenance.resolve s.setup.tree s.setup.roots path origin with
  | .ok found =>
      if (effectiveKind s.setup.registry path found.kind).isSource then
        found.dir.map fun dir => (effectiveKind s.setup.registry path found.kind, dir)
      else none
  | .error _ => none

theorem sourceOf?_of_error {s : Session} {path : String} {origin : Option Path} {e : Error}
    (hfound : Provenance.resolve s.setup.tree s.setup.roots path origin = .error e) :
    s.sourceOf? path origin = none := by
  unfold sourceOf?
  rw [hfound]

theorem sourceOf?_of_other {s : Session} {path : String} {origin : Option Path}
    {found : Resolution} {kind : PackageKind}
    (hfound : Provenance.resolve s.setup.tree s.setup.roots path origin = .ok found)
    (hkind : effectiveKind s.setup.registry path found.kind = kind)
    (hother : kind.isSource = false) : s.sourceOf? path origin = none := by
  unfold sourceOf?
  rw [hfound]
  dsimp only
  rw [hkind, hother]
  rfl

theorem sourceOf?_of_source {s : Session} {path : String} {origin : Option Path}
    {found : Resolution} {kind : PackageKind} {dir : Path}
    (hfound : Provenance.resolve s.setup.tree s.setup.roots path origin = .ok found)
    (hkind : effectiveKind s.setup.registry path found.kind = kind)
    (hsource : kind.isSource = true) (hdir : found.dir = some dir) :
    s.sourceOf? path origin = some (kind, dir) := by
  unfold sourceOf?
  rw [hfound]
  dsimp only
  rw [hkind, hsource, hdir]
  rfl

theorem isSource_of_sourceOf? {s : Session} {path : String} {origin : Option Path}
    {kind : PackageKind} {dir : Path} (h : s.sourceOf? path origin = some (kind, dir)) :
    kind.isSource = true ∧ Provenance.isValid path = true := by
  unfold sourceOf? at h
  split at h
  · next found hfound =>
      split at h
      · next hsource =>
          rcases Option.map_eq_some_iff.mp h with ⟨dir', _, heq⟩
          cases heq
          exact ⟨hsource, Provenance.isValid_of_resolve hfound⟩
      · cases h
  · cases h

/-- How the request for a path that is neither remembered nor pending ends. -/
inductive Opens (importer : Importer) (path : String) (origin : Option Path)
    (s : Session) : Except Error (Option Package) -> Session -> Prop where
  | misnamed {e : Error}
      (hfound : Provenance.resolve s.setup.tree s.setup.roots path origin = .error e) :
      Opens importer path origin s (.error e) s
  | absent {found : Resolution}
      (hfound : Provenance.resolve s.setup.tree s.setup.roots path origin = .ok found)
      (hkind : effectiveKind s.setup.registry path found.kind = .absent) :
      Opens importer path origin s (.ok none)
        ((s.recordKind path .absent).remember path .absent)
  | system {found : Resolution}
      (hfound : Provenance.resolve s.setup.tree s.setup.roots path origin = .ok found)
      (hkind : effectiveKind s.setup.registry path found.kind = .system) :
      Opens importer path origin s
        (.ok (some (systemPackage s.setup.registry path found.dir)))
        ((s.recordKind path .system).remember path
          (.resolved (systemPackage s.setup.registry path found.dir)))
  | broken {kind : PackageKind} {dir : Path} {t : Session} {e : Error}
      (hsource : s.sourceOf? path origin = some (kind, dir))
      (hload : (loadAndCheck importer path kind dir).run ((s.recordKind path kind).enter path) =
        (.error e, t))
      (hinvariant : e.isInvariant = true) :
      Opens importer path origin s (.error e) t.leave
  | failed {kind : PackageKind} {dir : Path} {t : Session} {e : Error}
      (hsource : s.sourceOf? path origin = some (kind, dir))
      (hload : (loadAndCheck importer path kind dir).run ((s.recordKind path kind).enter path) =
        (.error e, t))
      (hinvariant : e.isInvariant = false) :
      Opens importer path origin s (.error e) (t.leave.remember path (.failed e.message))
  | resolved {kind : PackageKind} {dir : Path} {t : Session} {package : Package}
      (hsource : s.sourceOf? path origin = some (kind, dir))
      (hload : (loadAndCheck importer path kind dir).run ((s.recordKind path kind).enter path) =
        (.ok package, t)) :
      Opens importer path origin s (.ok (some package))
        (t.leave.remember path (.resolved package))

theorem kind_of_effectiveKind {registry : Registry} {path : String} {kind kind' : PackageKind}
    (h : effectiveKind registry path kind = kind') (hsource : kind'.isSource = true) :
    kind ≠ .absent := by
  intro habsent
  subst habsent h
  unfold effectiveKind at hsource
  split at hsource
  · cases hsource
  · cases hsource

theorem opens_of_resolveSource {importer : Importer} {path : String}
    {origin : Option Path} {kind : PackageKind} {dir : Path} {s t : Session}
    {r : Except Error (Option Package)}
    (hsource : s.sourceOf? path origin = some (kind, dir))
    (h : (resolveSource importer path kind (some dir)).run (s.recordKind path kind) = (r, t)) :
    Opens importer path origin s r t := by
  unfold resolveSource at h
  rw [run_modify_bind, run_get_bind] at h
  rcases hload : (loadAndCheck importer path kind dir).run ((s.recordKind path kind).enter path)
    with ⟨result, u⟩
  rw [hload] at h
  change (settle path result).run u.leave = (r, t) at h
  cases result with
  | ok package =>
      cases h
      exact Opens.resolved hsource hload
  | error e =>
      unfold settle at h
      dsimp only at h
      cases hinvariant : e.isInvariant with
      | true =>
          rw [hinvariant] at h
          cases h
          exact Opens.broken hsource hload hinvariant
      | false =>
          rw [hinvariant] at h
          cases h
          exact Opens.failed hsource hload hinvariant

theorem opens_of_run {importer : Importer} {path : String} {origin : Option Path}
    {s t : Session} {r : Except Error (Option Package)}
    (h : (resolveNew importer path origin).run s = (r, t)) :
    Opens importer path origin s r t := by
  unfold resolveNew at h
  rw [run_get_bind] at h
  cases hfound : Provenance.resolve s.setup.tree s.setup.roots path origin with
  | error e =>
      rw [run_lift_bind_error hfound] at h
      cases h
      exact Opens.misnamed hfound
  | ok found =>
      rw [run_lift_bind_ok hfound, run_modify_bind] at h
      cases hkind : effectiveKind s.setup.registry path found.kind with
      | absent =>
          rw [hkind] at h
          cases h
          exact Opens.absent hfound hkind
      | system =>
          rw [hkind] at h
          cases h
          exact Opens.system hfound hkind
      | vendored =>
          rcases Provenance.dir_of_resolve hfound (kind_of_effectiveKind hkind rfl) with
            ⟨dir, hdir⟩
          rw [hkind, hdir] at h
          exact opens_of_resolveSource (sourceOf?_of_source hfound hkind rfl hdir) h
      | user =>
          rcases Provenance.dir_of_resolve hfound (kind_of_effectiveKind hkind rfl) with
            ⟨dir, hdir⟩
          rw [hkind, hdir] at h
          exact opens_of_resolveSource (sourceOf?_of_source hfound hkind rfl hdir) h

/-!
# Requests
-/

def importerWithin (bound : Nat) : Importer := fun q s =>
  (answer q.path ((resolveWithin bound q.path (some q.dir)).run s).1,
    ((resolveWithin bound q.path (some q.dir)).run s).2)

def Held (s : Session) (path : String) : Prop :=
  (exists entry, s.cache.get? path = some entry) ∨ path ∈ s.pending

theorem not_held_iff {s : Session} {path : String} :
    ¬ s.Held path ↔ s.cache.get? path = none ∧ path ∉ s.pending := by
  unfold Held
  rw [not_or, ← Option.isSome_iff_exists, Option.not_isSome_iff_eq_none]

inductive Requests (path : String) (origin : Option Path) (s : Session) :
    Nat -> Except Error (Option Package) -> Session -> Prop where
  | cached {bound : Nat} {entry : CacheEntry} (hentry : s.cache.get? path = some entry) :
      Requests path origin s bound (remembered path entry) s.countRequest.countHit
  | cyclic {bound : Nat} (hnew : s.cache.get? path = none) (hpending : path ∈ s.pending) :
      Requests path origin s bound (.error (.importCycle (s.pending ++ [path]))) s.countRequest
  | exhausted (hnew : ¬ s.Held path) :
      Requests path origin s 0 (.error (.importCycle (s.pending ++ [path]))) s.countRequest
  | opened {bound : Nat} {r : Except Error (Option Package)} {t : Session}
      (hnew : ¬ s.Held path)
      (hopens : Opens (importerWithin bound) path origin s.countRequest r t) :
      Requests path origin s (bound + 1) r t

theorem run_resolveStep_cached {fresh : Action (Option Package)} {path : String} {s : Session}
    {entry : CacheEntry} (h : s.cache.get? path = some entry) :
    (resolveStep fresh path).run s = (remembered path entry, s.countRequest.countHit) := by
  have hcache : s.countRequest.cache.get? path = some entry := h
  unfold resolveStep
  rw [run_modify_bind, run_get_bind, hcache]
  dsimp only
  cases remembered path entry with
  | ok r => rfl
  | error e => rfl

theorem run_resolveStep_cyclic {fresh : Action (Option Package)} {path : String} {s : Session}
    (h : s.cache.get? path = none) (hpending : path ∈ s.pending) :
    (resolveStep fresh path).run s =
      (.error (.importCycle (s.pending ++ [path])), s.countRequest) := by
  have hcache : s.countRequest.cache.get? path = none := h
  have hcontains : s.countRequest.pending.contains path = true :=
    List.contains_iff_mem.mpr hpending
  unfold resolveStep
  rw [run_modify_bind, run_get_bind, hcache]
  dsimp only
  rw [if_pos hcontains]
  rfl

theorem run_resolveStep_new {fresh : Action (Option Package)} {path : String} {s : Session}
    (h : ¬ s.Held path) : (resolveStep fresh path).run s = fresh.run s.countRequest := by
  rcases not_held_iff.mp h with ⟨hnew, hpending⟩
  have hcache : s.countRequest.cache.get? path = none := hnew
  have hcontains : ¬ s.countRequest.pending.contains path = true := by
    rw [List.contains_iff_mem]
    exact hpending
  unfold resolveStep
  rw [run_modify_bind, run_get_bind, hcache]
  dsimp only
  rw [if_neg hcontains]

theorem run_resolveWithin_cached {path : String} {s : Session} {entry : CacheEntry}
    (h : s.cache.get? path = some entry) (bound : Nat) (origin : Option Path) :
    (resolveWithin bound path origin).run s = (remembered path entry, s.countRequest.countHit) := by
  cases bound with
  | zero => exact run_resolveStep_cached h
  | succ bound => exact run_resolveStep_cached h

theorem requests_of_run {bound : Nat} {path : String} {origin : Option Path} {s t : Session}
    {r : Except Error (Option Package)} (h : (resolveWithin bound path origin).run s = (r, t)) :
    Requests path origin s bound r t := by
  cases hentry : s.cache.get? path with
  | some entry =>
      rw [run_resolveWithin_cached hentry] at h
      cases h
      exact Requests.cached hentry
  | none =>
      by_cases hpending : path ∈ s.pending
      · have hrun : (resolveWithin bound path origin).run s =
            (.error (.importCycle (s.pending ++ [path])), s.countRequest) := by
          cases bound with
          | zero => exact run_resolveStep_cyclic hentry hpending
          | succ bound => exact run_resolveStep_cyclic hentry hpending
        rw [hrun] at h
        cases h
        exact Requests.cyclic hentry hpending
      · have hnew : ¬ s.Held path := not_held_iff.mpr ⟨hentry, hpending⟩
        cases bound with
        | zero =>
            unfold resolveWithin at h
            rw [run_resolveStep_new hnew] at h
            cases h
            exact Requests.exhausted hnew
        | succ bound =>
            unfold resolveWithin at h
            rw [run_resolveStep_new hnew] at h
            exact Requests.opened hnew (opens_of_run h)

end Session
end GoAtlas
