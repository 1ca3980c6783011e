import GoAtlas.Proofs.Session.Attempts

/-!
# Stable answers

What a session remembers of a path is the first answer that was given for it.  From then on
every request for the path is told the same and changes nothing but two counters, and nothing is
loaded twice unless an invariant was broken.
-/

namespace GoAtlas
namespace Session

def FirstAnswer : CacheEntry -> Except Error (Option Package) -> Prop
  | .resolved package, r => r = .ok (some package)
  | .absent, r => r = .ok none
  | .failed cause, r => exists e, r = .error e ∧ e.isInvariant = false ∧ e.message = cause

theorem firstAnswer_of_opens {importer : Importer} (hgrowing : Growing importer)
    {path : String} {origin : Option Path} {s t : Session} {r : Except Error (Option Package)}
    (hnew : ¬ s.Held path) (h : Opens importer path origin s r t) {entry : CacheEntry}
    (hentry : t.cache.get? path = some entry) : FirstAnswer entry r := by
  have hself : forall {u : Session} {e : CacheEntry},
      (u.remember path e).cache.get? path = some entry -> e = entry := by
    intro u e he
    exact Option.some.inj ((Table.get?_insert_self u.cache path e).symm.trans he)
  cases h with
  | misnamed hfound => cases (not_held_iff.mp hnew).1.symm.trans hentry
  | absent hfound hkind =>
      cases hself hentry
      rfl
  | system hfound hkind =>
      cases hself hentry
      rfl
  | broken hsource hload hinvariant =>
      have hentered := entered_of_loads hgrowing hnew (loads_of_run hload)
      cases (not_held_iff.mp hentered.new).1.symm.trans hentry
  | failed hsource hload hinvariant =>
      cases hself hentry
      exact ⟨_, rfl, hinvariant, rfl⟩
  | resolved hsource hload =>
      cases hself hentry
      rfl

theorem firstAnswer_of_requests {bound : Nat} {path : String} {origin : Option Path}
    {s t : Session} {r : Except Error (Option Package)} (h : Requests path origin s bound r t)
    (hnew : s.cache.get? path = none) {entry : CacheEntry}
    (hentry : t.cache.get? path = some entry) : FirstAnswer entry r := by
  cases h with
  | cached hold => cases hnew.symm.trans hold
  | cyclic _ hpending => cases hnew.symm.trans hentry
  | exhausted _ => cases hnew.symm.trans hentry
  | @opened bound _ _ hunheld hopens =>
      exact firstAnswer_of_opens (s := s.countRequest) (growing_importerWithin bound) hunheld hopens
        hentry

/-- In `t`, all is still known of a path that was remembered in `s`, and requests for it change
nothing but two counters. -/
structure Lasting (s t : Session) (path : String) (entry : CacheEntry) : Prop where
  cache : t.cache.get? path = some entry
  kind : t.kinds.get? path = s.kinds.get? path
  package : t.index.package path = s.index.package path
  request : forall bound origin, (resolveWithin bound path origin).run t =
    (remembered path entry, t.countRequest.countHit)
  resolve : (Session.resolve path).run t = (remembered path entry, t.countRequest.countHit)
  importFrom : forall dir, (Session.importFrom path dir).run t =
    (remembered path entry, t.countRequest.countHit)

theorem run_resolveFrom_cached {path : String} {s : Session} {entry : CacheEntry}
    (h : s.cache.get? path = some entry) (origin : Option Path) :
    (resolveFrom path origin).run s = (remembered path entry, s.countRequest.countHit) := by
  rw [run_resolveFrom]
  exact run_resolveWithin_cached h _ origin

theorem lasting_of_grows {s t : Session} (h : Grows s t) {path : String} {entry : CacheEntry}
    (hentry : s.cache.get? path = some entry) : Lasting s t path entry where
  cache := h.cached hentry
  kind := h.kinds path (Or.inl ⟨entry, hentry⟩)
  package := h.package path (Or.inl ⟨entry, hentry⟩)
  request := run_resolveWithin_cached (h.cached hentry)
  resolve := by
    rw [run_resolve]
    exact run_resolveFrom_cached (h.cached hentry) _
  importFrom dir := run_resolveFrom_cached (h.cached hentry) (some dir)

/-- Answers are stable, and work is done once. -/
structure Steady (setup : Setup) (ops : List Operation) : Prop where
  /-- What is remembered between two operations lasts over all later ones. -/
  later : forall more path entry, (after setup ops).cache.get? path = some entry ->
    Lasting (after setup ops) (after setup (ops ++ more)) path entry
  /-- What is remembered while checks are running lasts over all of their requests. -/
  nested : forall s path entry, s.cache.get? path = some entry -> forall bound other origin,
    Lasting s ((resolveWithin bound other origin).run s).2 path entry
  /-- An entry says what the request that it stems from was told. -/
  first : forall s path, s.cache.get? path = none -> forall bound origin entry,
    ((resolveWithin bound path origin).run s).2.cache.get? path = some entry ->
      FirstAnswer entry ((resolveWithin bound path origin).run s).1
  cause : forall path cause, (after setup ops).cache.get? path = some (.failed cause) ->
    exists a, a ∈ attempts setup ops ∧ a.path = path ∧ a.isBroken = false ∧
      a.entry = .failed cause
  idle : (after setup ops).pending = []
  loads : (after setup ops).stats.loads = (after setup ops).loadedEntries +
    (attempts setup ops).countP fun a => a.isBroken
  /-- The journal has all loads and all checks. -/
  journal : (after setup ops).stats.loads = (attempts setup ops).length ∧
    (after setup ops).stats.checks = (attempts setup ops).countP fun a => a.isChecked
  once : forall path,
    (forall a, a ∈ attempts setup ops -> a.path = path -> a.isBroken = false) ->
      ((attempts setup ops).countP fun a => a.path == path) ≤ 1

theorem steady_after (setup : Setup) (ops : List Operation) : Steady setup ops := by
  have haccounts := accounts_after setup ops
  exact
    { later := fun more _ _ hentry => lasting_of_grows (grows_after setup ops more) hentry
      nested := fun s _ _ hentry bound other origin =>
        lasting_of_grows (grows_resolveWithin bound other origin s) hentry
      first := fun _ _ hnew _ _ _ hentry =>
        firstAnswer_of_requests (requests_of_run rfl) hnew hentry
      cause := by
        intro path cause hcause
        rcases haccounts.origin path _ hcause rfl with hold | hfound
        · cases hold
        · exact hfound
      idle := pending_after setup ops
      loads := haccounts.loads_eq rfl rfl
      journal := by
        rw [haccounts.loads, haccounts.checks]
        exact ⟨Nat.zero_add _, Nat.zero_add _⟩
      once := fun _ hpath => haccounts.countP_path_le_one hpath }

end Session
end GoAtlas
