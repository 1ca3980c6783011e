import GoAtlas.Proofs.FileTree
import GoAtlas.Proofs.Session.Operation
import Mathlib.Logic.Relation

/-!
# Nested requests

A check asks for further packages, which are checked in turn.  The paths of the running checks
are distinct, lead to directories and are not remembered, so there are never more of them than
the tree has import paths: the bound on nesting is never used up, and resolution is a solution of
its recursion without a bound.  Every request comes back to the pending paths it began with.
-/

namespace GoAtlas

namespace Provenance

theorem join_of_mem_candidates {roots : SearchRoots} {path : String} {origin : Option Path}
    {kind : PackageKind} {dir : Path} (h : (kind, dir) ∈ candidates roots path origin) :
    exists base : Path, dir = base.join path := by
  unfold candidates at h
  rcases List.mem_append.mp h with hfront | huser
  · rcases List.mem_append.mp hfront with hvendored | hsystem
    · rcases List.mem_map.mp hvendored with ⟨level, _, heq⟩
      cases heq
      exact ⟨level.join roots.vendorDir, rfl⟩
    · rcases Option.map_eq_some_iff.mp (Option.mem_toList.mp hsystem) with ⟨root, _, heq⟩
      cases heq
      exact ⟨root, rfl⟩
  · rcases Option.map_eq_some_iff.mp (Option.mem_toList.mp huser) with ⟨root, _, heq⟩
    cases heq
    exact ⟨root, rfl⟩

theorem leads_of_resolve {t : FileTree} {roots : SearchRoots} {path : String}
    {origin : Option Path} {found : Resolution}
    (h : resolve t roots path origin = .ok found) (hkind : found.kind ≠ .absent) :
    t.Leads path := by
  have hvalid := isValid_of_resolve h
  unfold resolve validate at h
  rw [if_pos hvalid] at h
  simp only [bind, Except.bind] at h
  split at h
  · next kind dir hfind =>
      rcases join_of_mem_candidates (List.mem_of_find?_eq_some hfind) with ⟨base, hbase⟩
      refine ⟨hvalid, base, ?_⟩
      have hdir := List.find?_some hfind
      rw [← hbase]
      exact hdir
  · cases h
    exact absurd rfl hkind

end Provenance

namespace Session

/-!
# Pending paths
-/

/-- The paths of the running checks are distinct, not remembered, and lead to directories. -/
structure Tidy (s : Session) : Prop where
  nodup : s.pending.Nodup
  new : forall path, path ∈ s.pending -> s.cache.get? path = none
  leads : forall path, path ∈ s.pending -> s.setup.tree.Leads path

namespace Tidy

theorem of_idle {s : Session} (h : s.pending = []) : Tidy s := by
  constructor
  · rw [h]
    exact List.nodup_nil
  · rw [h]
    intro path hpath
    cases hpath
  · rw [h]
    intro path hpath
    cases hpath

theorem of_grows {s t : Session} (hs : Tidy s) (h : Grows s t) : Tidy t := by
  constructor
  · rw [h.pending]
    exact hs.nodup
  · intro path hpath
    rw [h.pending] at hpath
    rw [h.cache path (Or.inr hpath)]
    exact hs.new path hpath
  · intro path hpath
    rw [h.pending] at hpath
    rw [h.setup]
    exact hs.leads path hpath

theorem length_le {s : Session} (hs : Tidy s) : s.pending.length ≤ s.setup.tree.importBound :=
  FileTree.length_le_importBound hs.nodup hs.leads

end Tidy

theorem leads_of_sourceOf? {s : Session} {path : String} {origin : Option Path}
    {kind : PackageKind} {dir : Path} (h : s.sourceOf? path origin = some (kind, dir)) :
    s.setup.tree.Leads path := by
  unfold sourceOf? at h
  split at h
  · next found hfound =>
      split at h
      · next hsource =>
          exact Provenance.leads_of_resolve hfound (kind_of_effectiveKind rfl hsource)
      · cases h
  · cases h

def opened (s : Session) (path : String) (kind : PackageKind) : Session :=
  (s.countRequest.recordKind path kind).enter path

theorem tidy_opened {s : Session} {path : String} {origin : Option Path} {kind : PackageKind}
    {dir : Path} (hs : Tidy s) (hnew : ¬ s.Held path)
    (hsource : s.sourceOf? path origin = some (kind, dir)) : Tidy (s.opened path kind) := by
  rw [not_held_iff] at hnew
  constructor
  · show (s.pending ++ [path]).Nodup
    rw [List.nodup_append]
    refine ⟨hs.nodup, List.nodup_singleton path, ?_⟩
    intro a ha b hb heq
    rw [List.mem_singleton] at hb
    exact hnew.2 (hb ▸ heq ▸ ha)
  · intro other hother
    rcases List.mem_append.mp hother with hold | hself
    · exact hs.new other hold
    · rw [List.mem_singleton.mp hself]
      exact hnew.1
  · intro other hother
    rcases List.mem_append.mp hother with hold | hself
    · exact hs.leads other hold
    · rw [List.mem_singleton.mp hself]
      exact leads_of_sourceOf? hsource

/-!
# The bound on nesting
-/

def AlikeInside (s : Session) (importer other : Importer) : Prop :=
  forall q t, Tidy t -> t.setup = s.setup -> t.pending.length = s.pending.length + 1 ->
    importer q t = other q t

theorem run_loadAndCheck_congr {importer other : Importer} {path : String}
    {kind : PackageKind} {dir : Path} {s : Session}
    (h : forall source, (s.setup.checker source).run importer s.countLoad.countCheck =
      (s.setup.checker source).run other s.countLoad.countCheck) :
    (loadAndCheck importer path kind dir).run s = (loadAndCheck other path kind dir).run s := by
  unfold loadAndCheck
  rw [run_modify_bind, run_get_bind, run_modify_bind, run_get_bind]
  change (liftM (Loading.load s.setup.tree s.setup.options.includeTests dir path) >>= _ :
    Action Package).run _ = (liftM (Loading.load s.setup.tree s.setup.options.includeTests dir
      path) >>= _ : Action Package).run _
  cases hload : Loading.load s.setup.tree s.setup.options.includeTests dir path with
  | error e => rw [run_lift_bind_error rfl, run_lift_bind_error rfl]
  | ok source =>
      rw [run_lift_bind_ok rfl, run_lift_bind_ok rfl]
      rcases hrun : (s.setup.checker source).run importer s.countLoad.countCheck with
        ⟨outcome, t⟩
      rw [run_bind_ok (run_check (s := s.countLoad) hrun),
        run_bind_ok (run_check (s := s.countLoad) ((h source).symm.trans hrun))]

theorem run_resolveNew_congr {importer other : Importer} {path : String}
    {origin : Option Path} {s : Session}
    (h : forall kind dir, s.sourceOf? path origin = some (kind, dir) ->
      (loadAndCheck importer path kind dir).run ((s.recordKind path kind).enter path) =
        (loadAndCheck other path kind dir).run ((s.recordKind path kind).enter path)) :
    (resolveNew importer path origin).run s = (resolveNew other path origin).run s := by
  unfold resolveNew
  rw [run_get_bind, run_get_bind]
  cases hfound : Provenance.resolve s.setup.tree s.setup.roots path origin with
  | error e => rw [run_lift_bind_error hfound, run_lift_bind_error hfound]
  | ok found =>
      rw [run_lift_bind_ok hfound, run_lift_bind_ok hfound, run_modify_bind, run_modify_bind]
      have hsources : forall kind, effectiveKind s.setup.registry path found.kind = kind ->
          kind.isSource = true ->
            (resolveSource importer path kind found.dir).run (s.recordKind path kind) =
              (resolveSource other path kind found.dir).run (s.recordKind path kind) := by
        intro kind hkind hsource
        rcases Provenance.dir_of_resolve hfound (kind_of_effectiveKind hkind hsource) with
          ⟨dir, hdir⟩
        rw [hdir]
        unfold resolveSource
        rw [run_modify_bind, run_get_bind, run_modify_bind, run_get_bind,
          h kind dir (sourceOf?_of_source hfound hkind hsource hdir)]
      cases hkind : effectiveKind s.setup.registry path found.kind with
      | absent => rfl
      | system => rfl
      | vendored => exact hsources .vendored hkind rfl
      | user => exact hsources .user hkind rfl

theorem run_resolveStep_congr {importer : Importer} (hgrowing : Growing importer)
    (other : Importer) {path : String} {origin : Option Path} {s : Session} (hs : Tidy s)
    (h : AlikeInside s importer other) :
    (resolveStep (resolveNew importer path origin) path).run s =
      (resolveStep (resolveNew other path origin) path).run s := by
  cases hentry : s.cache.get? path with
  | some entry => rw [run_resolveStep_cached hentry, run_resolveStep_cached hentry]
  | none =>
      by_cases hpending : path ∈ s.pending
      · rw [run_resolveStep_cyclic hentry hpending, run_resolveStep_cyclic hentry hpending]
      · have hnew : ¬ s.Held path := not_held_iff.mpr ⟨hentry, hpending⟩
        rw [run_resolveStep_new hnew, run_resolveStep_new hnew]
        apply run_resolveNew_congr
        intro kind dir hsource
        apply run_loadAndCheck_congr
        intro source
        have htidy : Tidy (s.opened path kind) := tidy_opened (s := s) hs hnew hsource
        -- The state of the check keeps its setup and its pending paths over every answer.
        apply Inquiry.run_congr (P := Grows (s.opened path kind))
        · intro q t ht
          exact ht.trans (hgrowing q t)
        · intro q t ht
          refine h q t (htidy.of_grows ht) ht.setup ?_
          rw [ht.pending]
          exact List.length_append
        · exact (grows_countLoad _).trans (grows_countCheck _)

/-- All bounds above the number of import paths that are left lead to the same run. -/
theorem run_resolveWithin_eq {m n : Nat} {path : String} {origin : Option Path} {s : Session}
    (hs : Tidy s) (hm : s.setup.tree.importBound < m + s.pending.length)
    (hn : s.setup.tree.importBound < n + s.pending.length) :
    (resolveWithin m path origin).run s = (resolveWithin n path origin).run s := by
  have hlength := hs.length_le
  induction m generalizing n path origin s with
  | zero => omega
  | succ m ih =>
      cases n with
      | zero => omega
      | succ n =>
          apply run_resolveStep_congr (growing_importerWithin m) (importerWithin n) hs
          intro q t ht hsetup hpending
          have hrun : (resolveWithin m q.path (some q.dir)).run t =
              (resolveWithin n q.path (some q.dir)).run t := by
            apply ih ht
            · rw [hsetup, hpending]
              omega
            · rw [hsetup, hpending]
              omega
            · exact ht.length_le
          unfold importerWithin
          rw [hrun]

def importerFrom : Importer := fun q s =>
  (answer q.path ((resolveFrom q.path (some q.dir)).run s).1, s.afterRequest q.path (some q.dir))

theorem growing_importerFrom : Growing importerFrom :=
  fun q s => grows_afterRequest s q.path (some q.dir)

/-- The recursion of resolution, with no bound in it. -/
theorem run_resolveFrom_step (path : String) (origin : Option Path) {s : Session} (hs : Tidy s) :
    (resolveFrom path origin).run s =
      (resolveStep (resolveNew importerFrom path origin) path).run s := by
  rw [run_resolveFrom]
  apply run_resolveStep_congr (growing_importerWithin s.setup.tree.importBound) importerFrom hs
  intro q t ht hsetup hpending
  have hrun : (resolveWithin s.setup.tree.importBound q.path (some q.dir)).run t =
      (resolveFrom q.path (some q.dir)).run t := by
    rw [run_resolveFrom]
    apply run_resolveWithin_eq ht
    · rw [hsetup, hpending]
      omega
    · omega
  unfold importerWithin importerFrom afterRequest
  rw [hrun]

/-!
# Calls
-/

/-- A request, with the session in which it is made. -/
structure Call where
  path : String
  origin : Option Path
  session : Session

namespace Call

def finish (c : Call) : Session :=
  c.session.afterRequest c.path c.origin

def Checks (c : Call) (source : LoadedPackage) (s : Session) : Prop :=
  ¬ c.session.Held c.path ∧ exists kind dir,
    c.session.sourceOf? c.path c.origin = some (kind, dir) ∧
    Loading.load c.session.setup.tree c.session.setup.options.includeTests dir c.path =
      .ok source ∧
    s = (c.session.opened c.path kind).countLoad.countCheck

def Makes (outer inner : Call) : Prop :=
  exists source s dir, outer.Checks source s ∧ inner.origin = some dir ∧
    Inquiry.Asks importerFrom ⟨inner.path, dir⟩ inner.session
      (outer.session.setup.checker source) s

/-- The sessions that a request passes through, those of the requests inside it included. -/
inductive Visits : Call -> Session -> Prop where
  | start (c : Call) : Visits c c.session
  | entered {c : Call} {kind : PackageKind} {dir : Path} (hnew : ¬ c.session.Held c.path)
      (hsource : c.session.sourceOf? c.path c.origin = some (kind, dir)) :
      Visits c (c.session.opened c.path kind)
  | nested {outer inner : Call} {t : Session} (hmakes : outer.Makes inner)
      (hinner : Visits inner t) : Visits outer t
  | checked {c : Call} {source : LoadedPackage} {s : Session} (hchecks : c.Checks source s) :
      Visits c ((c.session.setup.checker source).run importerFrom s).2
  | left {c : Call} {kind : PackageKind} {dir : Path} (hnew : ¬ c.session.Held c.path)
      (hsource : c.session.sourceOf? c.path c.origin = some (kind, dir)) :
      Visits c ((loadAndCheck importerFrom c.path kind dir).run
        (c.session.opened c.path kind)).2.leave
  | finish (c : Call) : Visits c c.finish

theorem grows_finish (c : Call) : Grows c.session c.finish :=
  grows_afterRequest c.session c.path c.origin

theorem tidy_of_checks {c : Call} {source : LoadedPackage} {s : Session} (hc : Tidy c.session)
    (h : c.Checks source s) :
    Tidy s ∧ s.setup = c.session.setup ∧ s.pending.length = c.session.pending.length + 1 := by
  rcases h with ⟨hnew, kind, dir, hsource, _, rfl⟩
  refine ⟨?_, rfl, List.length_append⟩
  exact (tidy_opened hc hnew hsource).of_grows ((grows_countLoad _).trans (grows_countCheck _))

theorem tidy_of_makes {outer inner : Call} (hc : Tidy outer.session) (h : outer.Makes inner) :
    Tidy inner.session ∧ inner.session.setup = outer.session.setup ∧
      inner.session.pending.length = outer.session.pending.length + 1 := by
  rcases h with ⟨source, s, dir, hchecks, _, hasks⟩
  rcases tidy_of_checks hc hchecks with ⟨htidy, hsetup, hlength⟩
  have hgrows : Grows s inner.session :=
    hasks.rel Grows.refl (fun _ _ _ => Grows.trans) growing_importerFrom
  refine ⟨htidy.of_grows hgrows, hgrows.setup.trans hsetup, ?_⟩
  rw [hgrows.pending, hlength]

/-- Every nested request has fewer import paths left to it. -/
theorem acc_of_tidy {c : Call} (hc : Tidy c.session) :
    Acc (fun inner outer : Call => outer.Makes inner) c := by
  generalize hleft : c.session.setup.tree.importBound - c.session.pending.length = left
  induction left generalizing c with
  | zero =>
      constructor
      intro inner hmakes
      rcases tidy_of_makes hc hmakes with ⟨htidy, hsetup, hlength⟩
      have hle := htidy.length_le
      rw [hsetup, hlength] at hle
      omega
  | succ left ih =>
      constructor
      intro inner hmakes
      rcases tidy_of_makes hc hmakes with ⟨htidy, hsetup, hlength⟩
      apply ih htidy
      rw [hsetup, hlength]
      omega

theorem tidy_of_visits {c : Call} {t : Session} (hc : Tidy c.session) (h : c.Visits t) :
    Tidy t := by
  induction h with
  | start c => exact hc
  | entered hnew hsource => exact tidy_opened hc hnew hsource
  | nested hmakes _ ih => exact ih (tidy_of_makes hc hmakes).1
  | @checked c source s hchecks =>
      have hgrows : Grows s ((c.session.setup.checker source).run importerFrom s).2 :=
        grows_check growing_importerFrom rfl
      exact (tidy_of_checks hc hchecks).1.of_grows hgrows
  | @left c kind dir hnew hsource =>
      have hentered : Entered c.session.countRequest c.path kind
          ((loadAndCheck importerFrom c.path kind dir).run (c.session.opened c.path kind)).2 :=
        entered_of_loads growing_importerFrom hnew (loads_of_run rfl)
      exact hc.of_grows ((grows_countRequest c.session).trans hentered.grows)
  | finish c => exact hc.of_grows c.grows_finish

theorem tidy_of_nested {outer inner : Call} (hc : Tidy outer.session)
    (h : Relation.ReflTransGen Makes outer inner) : Tidy inner.session := by
  induction h with
  | refl => exact hc
  | tail _ hmakes ih => exact (tidy_of_makes ih hmakes).1

end Call

/-- Requests come to an end and leave the pending paths as they found them. -/
structure Unwinds (c : Call) : Prop where
  /-- No chain of requests inside one another is infinite. -/
  ends : Acc (fun inner outer : Call => outer.Makes inner) c
  /-- The request, and each one inside it, does what the recursion without a bound says. -/
  step : forall inner, Relation.ReflTransGen Call.Makes c inner ->
    (resolveFrom inner.path inner.origin).run inner.session =
      (resolveStep (resolveNew importerFrom inner.path inner.origin) inner.path).run inner.session
  /-- Success or not, the pending paths are those from before. -/
  restored : forall inner, Relation.ReflTransGen Call.Makes c inner ->
    inner.finish.pending = inner.session.pending
  nodup : forall t, c.Visits t -> t.pending.Nodup
  new : forall t, c.Visits t -> forall path, path ∈ t.pending -> t.cache.get? path = none

theorem unwinds_of_tidy {c : Call} (hc : Tidy c.session) : Unwinds c where
  ends := Call.acc_of_tidy hc
  step inner h := run_resolveFrom_step inner.path inner.origin (Call.tidy_of_nested hc h)
  restored inner _ := inner.grows_finish.pending
  nodup _ h := (Call.tidy_of_visits hc h).nodup
  new _ h := (Call.tidy_of_visits hc h).new

/-- Requests of any kind, made at any point of a session, end and unwind. -/
structure Orderly (setup : Setup) (ops : List Operation) : Prop where
  resolve : forall path, Unwinds ⟨path, Operation.home (after setup ops) path, after setup ops⟩ ∧
    (Session.resolve path).run (after setup ops) =
      (resolveFrom path (Operation.home (after setup ops) path)).run (after setup ops) ∧
    ((Session.resolve path).run (after setup ops)).2.pending = []
  importFrom : forall path dir, Unwinds ⟨path, some dir, after setup ops⟩ ∧
    (Session.importFrom path dir).run (after setup ops) =
      (resolveFrom path (some dir)).run (after setup ops) ∧
    ((Session.importFrom path dir).run (after setup ops)).2.pending = []

theorem orderly_after (setup : Setup) (ops : List Operation) : Orderly setup ops := by
  have hidle := pending_after setup ops
  constructor
  · intro path
    refine ⟨unwinds_of_tidy (Tidy.of_idle hidle), run_resolve path _, ?_⟩
    rw [run_resolve]
    exact (grows_afterRequest _ path _).pending.trans hidle
  · intro path dir
    refine ⟨unwinds_of_tidy (Tidy.of_idle hidle), rfl, ?_⟩
    exact (grows_afterRequest _ path _).pending.trans hidle

end Session
end GoAtlas
