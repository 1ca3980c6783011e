import GoAtlas.Proofs.Session.Consistency

/-!
# Attempts

A journal of the attempts to load a package, in the order in which they end, with those made
inside a check before the check's own.  An attempt whose result is remembered is the last one of
its path, so the counters of a session can be read off its cache and its journal.
-/

namespace GoAtlas

structure Attempt where
  path : String
  /-- The sources could be read, and the checker ran. -/
  isChecked : Bool
  result : Except Error Package

namespace Attempt

def isBroken (a : Attempt) : Bool :=
  match a.result with
  | .ok _ => false
  | .error e => e.isInvariant

def entry (a : Attempt) : CacheEntry :=
  match a.result with
  | .ok package => .resolved package
  | .error e => .failed e.message

end Attempt

namespace CacheEntry

def isLoaded : CacheEntry -> Bool
  | resolved package => package.kind.isSource
  | absent => false
  | failed _ => true

end CacheEntry

namespace Inquiry

variable {ρ α ε σ : Type}

def notes (importer : ρ -> σ -> Answer × σ) (note : ρ -> σ -> List ε) :
    Inquiry ρ α -> σ -> List ε
  | done _, _ => []
  | ask q next, s =>
      note q s ++ (next (importer q s).1).notes importer note (importer q s).2

theorem run_notes {R : σ -> σ -> List ε -> Prop} (hrefl : forall s, R s s [])
    (htrans : forall s t u l m, R s t l -> R t u m -> R s u (l ++ m))
    {importer : ρ -> σ -> Answer × σ} {note : ρ -> σ -> List ε}
    (himporter : forall q s, R s (importer q s).2 (note q s)) (i : Inquiry ρ α) (s : σ) :
    R s (i.run importer s).2 (i.notes importer note s) := by
  induction i generalizing s with
  | done a => exact hrefl s
  | ask q next ih => exact htrans _ _ _ _ _ (himporter q s) (ih _ _)

end Inquiry

namespace Session

/-!
# The journal
-/

def loadAttempts (importer : Importer) (nested : Request -> Session -> List Attempt)
    (path : String) (kind : PackageKind) (dir : Path) (s : Session) : List Attempt :=
  let result := ((loadAndCheck importer path kind dir).run s).1
  match Loading.load s.setup.tree s.setup.options.includeTests dir path with
  | .error _ => [⟨path, false, result⟩]
  | .ok source =>
      (s.setup.checker source).notes importer nested s.countLoad.countCheck ++
        [⟨path, true, result⟩]

def attemptsWithin : Nat -> String -> Option Path -> Session -> List Attempt
  | 0, _, _, _ => []
  | bound + 1, path, origin, s =>
      if s.cache.contains path || s.pending.contains path then []
      else
        match s.sourceOf? path origin with
        | some (kind, dir) =>
            loadAttempts (importerWithin bound)
              (fun q s => attemptsWithin bound q.path (some q.dir) s) path kind dir
              ((s.countRequest.recordKind path kind).enter path)
        | none => []

def attemptsOf (op : Operation) (s : Session) : List Attempt :=
  match op.request? s with
  | some (path, origin) => attemptsWithin (s.setup.tree.importBound + 1) path origin s
  | none => []

def attemptsFrom : List Operation -> Session -> List Attempt
  | [], _ => []
  | op :: rest, s => attemptsOf op s ++ attemptsFrom rest (op.perform s)

def attempts (setup : Setup) (ops : List Operation) : List Attempt :=
  attemptsFrom ops (start setup)

/-!
# Accounting
-/

def loadedEntries (s : Session) : Nat :=
  s.cache.values.countP fun entry => entry.isLoaded

/-- How the journal of a run accounts for the work between two sessions. -/
structure Accounts (s t : Session) (log : List Attempt) : Prop where
  grows : Grows s t
  unheld : forall a, a ∈ log -> ¬ s.Held a.path
  loads : t.stats.loads = s.stats.loads + log.length
  checks : t.stats.checks = s.stats.checks + log.countP fun a => a.isChecked
  loaded : t.loadedEntries = s.loadedEntries + log.countP fun a => !a.isBroken
  kept : forall a, a ∈ log -> a.isBroken = false -> t.cache.get? a.path = some a.entry
  last : log.Pairwise fun a b => a.path = b.path -> a.isBroken = true
  origin : forall path entry, t.cache.get? path = some entry -> entry.isLoaded = true ->
    s.cache.get? path = some entry ∨
      exists a, a ∈ log ∧ a.path = path ∧ a.isBroken = false ∧ a.entry = entry

namespace Accounts

theorem nothing {s t : Session} (hgrows : Grows s t)
    (hloads : t.stats.loads = s.stats.loads) (hchecks : t.stats.checks = s.stats.checks)
    (hloaded : t.loadedEntries = s.loadedEntries)
    (horigin : forall path entry, t.cache.get? path = some entry -> entry.isLoaded = true ->
      s.cache.get? path = some entry) : Accounts s t [] where
  grows := hgrows
  unheld _ ha := absurd ha List.not_mem_nil
  loads := hloads
  checks := hchecks
  loaded := hloaded
  kept _ ha := absurd ha List.not_mem_nil
  last := List.Pairwise.nil
  origin path entry hentry hloaded := Or.inl (horigin path entry hentry hloaded)

theorem refl (s : Session) : Accounts s s [] :=
  nothing (Grows.refl s) rfl rfl rfl fun _ _ h _ => h

theorem trans {s t u : Session} {log more : List Attempt} (hst : Accounts s t log)
    (htu : Accounts t u more) : Accounts s u (log ++ more) where
  grows := hst.grows.trans htu.grows
  unheld a ha := by
    rcases List.mem_append.mp ha with hlog | hmore
    · exact hst.unheld a hlog
    · intro hheld
      exact htu.unheld a hmore (hst.grows.held hheld)
  loads := by
    rw [htu.loads, hst.loads, List.length_append, Nat.add_assoc]
  checks := by
    rw [htu.checks, hst.checks, List.countP_append, Nat.add_assoc]
  loaded := by
    rw [htu.loaded, hst.loaded, List.countP_append, Nat.add_assoc]
  kept a ha hbroken := by
    rcases List.mem_append.mp ha with hlog | hmore
    · exact htu.grows.cached (hst.kept a hlog hbroken)
    · exact htu.kept a hmore hbroken
  last := by
    rw [List.pairwise_append]
    refine ⟨hst.last, htu.last, ?_⟩
    intro a ha b hb heq
    cases hbroken : a.isBroken with
    | true => rfl
    | false =>
        -- Whatever was not broken left an entry, and no attempt is made for a held path.
        have hheld : t.Held b.path := Or.inl ⟨a.entry, heq ▸ hst.kept a ha hbroken⟩
        exact absurd hheld (htu.unheld b hb)
  origin path entry hentry hloaded := by
    rcases htu.origin path entry hentry hloaded with hold | ⟨a, ha, hpath, hbroken, heq⟩
    · rcases hst.origin path entry hold hloaded with hold | ⟨a, ha, hpath, hbroken, heq⟩
      · exact Or.inl hold
      · exact Or.inr ⟨a, List.mem_append_left _ ha, hpath, hbroken, heq⟩
    · exact Or.inr ⟨a, List.mem_append_right _ ha, hpath, hbroken, heq⟩

end Accounts

/-!
# The attempt for a new path
-/

/-- An attempt for a new path, made in `inner` and settled in `u`, with `log` and the session
`t` as what its check leads to. -/
structure Settles (s inner t u : Session) (a : Attempt) (log : List Attempt) : Prop where
  new : ¬ s.Held a.path
  cache : inner.cache = s.cache
  pending : inner.pending = s.pending ++ [a.path]
  loads : inner.stats.loads = s.stats.loads + 1
  checks : inner.stats.checks = s.stats.checks + if a.isChecked then 1 else 0
  nested : Accounts inner t log
  grows : Grows s u
  stats : u.stats = t.stats
  loaded : a.isBroken = false -> a.entry.isLoaded = true
  final : u.cache = if a.isBroken then t.cache else t.cache.insert a.path a.entry

namespace Settles

variable {s inner t u : Session} {a : Attempt} {log : List Attempt}

theorem held_self (h : Settles s inner t u a log) : inner.Held a.path := by
  apply Or.inr
  rw [h.pending]
  exact List.mem_append_right _ List.mem_cons_self

theorem held (h : Settles s inner t u a log) {path : String} (hheld : s.Held path) :
    inner.Held path := by
  rcases hheld with ⟨entry, hentry⟩ | hpending
  · exact Or.inl ⟨entry, h.cache ▸ hentry⟩
  · apply Or.inr
    rw [h.pending]
    exact List.mem_append_left _ hpending

theorem path_ne (h : Settles s inner t u a log) {b : Attempt} (hb : b ∈ log) :
    b.path ≠ a.path := by
  intro heq
  exact h.nested.unheld b hb (heq ▸ h.held_self)

theorem uncached (h : Settles s inner t u a log) : t.cache.get? a.path = none := by
  rw [h.nested.grows.cache a.path h.held_self, h.cache]
  exact (not_held_iff.mp h.new).1

theorem get?_of_ne (h : Settles s inner t u a log) {path : String} (hne : path ≠ a.path) :
    u.cache.get? path = t.cache.get? path := by
  rw [h.final]
  split
  · rfl
  · exact Table.get?_insert_of_ne t.cache a.entry hne

theorem get?_self (h : Settles s inner t u a log) :
    u.cache.get? a.path = if a.isBroken then none else some a.entry := by
  rw [h.final]
  split
  · exact h.uncached
  · exact Table.get?_insert_self t.cache a.path a.entry

theorem loadedEntries_eq (h : Settles s inner t u a log) :
    u.loadedEntries = t.loadedEntries + if a.isBroken then 0 else 1 := by
  unfold loadedEntries
  rw [h.final]
  cases hbroken : a.isBroken with
  | true => simp
  | false =>
      have hperm : (t.cache.insert a.path a.entry).values.Perm (a.entry :: t.cache.values) :=
        Table.values_insert_perm h.uncached
      simp [hperm.countP_eq, h.loaded hbroken]

theorem accounts (h : Settles s inner t u a log) : Accounts s u (log ++ [a]) where
  grows := h.grows
  unheld b hb := by
    rcases List.mem_append.mp hb with hlog | hself
    · intro hheld
      exact h.nested.unheld b hlog (h.held hheld)
    · rw [List.mem_singleton.mp hself]
      exact h.new
  loads := by
    rw [h.stats, h.nested.loads, h.loads, List.length_append, List.length_singleton]
    omega
  checks := by
    rw [h.stats, h.nested.checks, h.checks, List.countP_append, List.countP_singleton]
    omega
  loaded := by
    have hinner : inner.loadedEntries = s.loadedEntries := by
      unfold loadedEntries
      rw [h.cache]
    rw [h.loadedEntries_eq, h.nested.loaded, hinner, List.countP_append, List.countP_singleton]
    cases a.isBroken with
    | true => rfl
    | false => rfl
  kept b hb hbroken := by
    rcases List.mem_append.mp hb with hlog | hself
    · rw [h.get?_of_ne (h.path_ne hlog)]
      exact h.nested.kept b hlog hbroken
    · rw [List.mem_singleton.mp hself] at hbroken ⊢
      rw [h.get?_self, hbroken]
      rfl
  last := by
    rw [List.pairwise_append]
    refine ⟨h.nested.last, List.pairwise_singleton _ a, ?_⟩
    intro b hb c hc heq
    rw [List.mem_singleton.mp hc] at heq
    exact absurd heq (h.path_ne hb)
  origin path entry hentry hloaded := by
    by_cases hpath : path = a.path
    · subst hpath
      rw [h.get?_self] at hentry
      cases hbroken : a.isBroken with
      | true =>
          rw [hbroken] at hentry
          cases hentry
      | false =>
          rw [hbroken] at hentry
          cases hentry
          exact Or.inr ⟨a, List.mem_append_right _ List.mem_cons_self, rfl, hbroken, rfl⟩
    · rw [h.get?_of_ne hpath] at hentry
      rcases h.nested.origin path entry hentry hloaded with hold | ⟨b, hb, hb'⟩
      · exact Or.inl (h.cache ▸ hold)
      · exact Or.inr ⟨b, List.mem_append_left _ hb, hb'⟩

end Settles

/-!
# Whole requests
-/

def Journaled (importer : Importer) (nested : Request -> Session -> List Attempt) : Prop :=
  forall q s, Accounts s (importer q s).2 (nested q s)

theorem accounts_notes {importer : Importer}
    {nested : Request -> Session -> List Attempt} (himporter : Journaled importer nested)
    {checker : Checker} {source : LoadedPackage} {s t : Session} {outcome : CheckOutcome}
    (hcheck : (checker source).run importer s = (outcome, t)) :
    Accounts s t ((checker source).notes importer nested s) := by
  have hrun := Inquiry.run_notes Accounts.refl (fun _ _ _ _ _ => Accounts.trans)
    himporter (checker source) s
  rw [hcheck] at hrun
  exact hrun

theorem isLoaded_of_loads {importer : Importer} {path : String} {kind : PackageKind}
    {dir : Path} {s t : Session} {r : Except Error Package} (hkind : kind.isSource = true)
    (h : Loads importer path kind dir s r t) :
    (Attempt.mk path true r).entry.isLoaded = true := by
  cases h with
  | unreadable hload => rfl
  | rejected hload hcheck hverdict => rfl
  | refused hload hcheck hverdict hmerge => rfl
  | merged hload hcheck hverdict hmerge => exact hkind

theorem accounts_checked {importer : Importer}
    {nested : Request -> Session -> List Attempt} (himporter : Journaled importer nested)
    {path : String} {kind : PackageKind} {dir : Path} {source : LoadedPackage}
    {outcome : CheckOutcome} {s t u : Session} {r : Except Error Package}
    (hnew : ¬ s.Held path)
    (hrun : ((loadAndCheck importer path kind dir).run
      ((s.recordKind path kind).enter path)).1 = r)
    (hload : Loading.load s.setup.tree s.setup.options.includeTests dir path = .ok source)
    (hcheck : (s.setup.checker source).run importer
      ((s.recordKind path kind).enter path).countLoad.countCheck = (outcome, t))
    (hloaded : (Attempt.mk path true r).entry.isLoaded = true) (hgrows : Grows s u)
    (hstats : u.stats = t.stats)
    (hfinal : u.cache = if (Attempt.mk path true r).isBroken then t.cache
      else t.cache.insert path (Attempt.mk path true r).entry) :
    Accounts s u
      (loadAttempts importer nested path kind dir ((s.recordKind path kind).enter path)) := by
  have hsettles : Settles s ((s.recordKind path kind).enter path).countLoad.countCheck t u
      ⟨path, true, r⟩ ((s.setup.checker source).notes importer nested
        ((s.recordKind path kind).enter path).countLoad.countCheck) :=
    { new := hnew
      cache := rfl
      pending := rfl
      loads := rfl
      checks := rfl
      nested := accounts_notes himporter hcheck
      grows := hgrows
      stats := hstats
      loaded := fun _ => hloaded
      final := hfinal }
  have hlog : loadAttempts importer nested path kind dir ((s.recordKind path kind).enter path) =
      (s.setup.checker source).notes importer nested
        ((s.recordKind path kind).enter path).countLoad.countCheck ++ [⟨path, true, r⟩] := by
    unfold loadAttempts
    rw [hrun, show Loading.load ((s.recordKind path kind).enter path).setup.tree
      ((s.recordKind path kind).enter path).setup.options.includeTests dir path = .ok source
      from hload]
    rfl
  rw [hlog]
  exact hsettles.accounts

theorem accounts_unreadable {importer : Importer}
    {nested : Request -> Session -> List Attempt} {path : String} {kind : PackageKind}
    {dir : Path} {s u : Session} {e : Error} (hnew : ¬ s.Held path)
    (hrun : ((loadAndCheck importer path kind dir).run
      ((s.recordKind path kind).enter path)).1 = .error e)
    (hload : Loading.load s.setup.tree s.setup.options.includeTests dir path = .error e)
    (hgrows : Grows s u)
    (hstats : u.stats = ((s.recordKind path kind).enter path).countLoad.stats)
    (hfinal : u.cache = if (Attempt.mk path false (.error e)).isBroken then s.cache
      else s.cache.insert path (Attempt.mk path false (.error e)).entry) :
    Accounts s u
      (loadAttempts importer nested path kind dir ((s.recordKind path kind).enter path)) := by
  have hsettles : Settles s ((s.recordKind path kind).enter path).countLoad
      ((s.recordKind path kind).enter path).countLoad u ⟨path, false, .error e⟩ [] :=
    { new := hnew
      cache := rfl
      pending := rfl
      loads := rfl
      checks := rfl
      nested := Accounts.refl _
      grows := hgrows
      stats := hstats
      loaded := fun _ => rfl
      final := hfinal }
  have hlog : loadAttempts importer nested path kind dir ((s.recordKind path kind).enter path) =
      [⟨path, false, .error e⟩] := by
    unfold loadAttempts
    rw [hrun, show Loading.load ((s.recordKind path kind).enter path).setup.tree
      ((s.recordKind path kind).enter path).setup.options.includeTests dir path = .error e
      from hload]
  rw [hlog]
  exact hsettles.accounts

theorem accounts_of_loads {importer : Importer}
    {nested : Request -> Session -> List Attempt} (himporter : Journaled importer nested)
    {path : String} {kind : PackageKind} {dir : Path} {s t u : Session}
    {r : Except Error Package} (hnew : ¬ s.Held path) (hkind : kind.isSource = true)
    (hresult : (loadAndCheck importer path kind dir).run
      ((s.recordKind path kind).enter path) = (r, t))
    (hgrows : Grows s u) (hstats : u.stats = t.stats)
    (hfinal : u.cache = if (Attempt.mk path true r).isBroken then t.cache
      else t.cache.insert path (Attempt.mk path true r).entry) :
    Accounts s u
      (loadAttempts importer nested path kind dir ((s.recordKind path kind).enter path)) := by
  have hloads := loads_of_run hresult
  have hrun := congrArg Prod.fst hresult
  have hloaded := isLoaded_of_loads hkind hloads
  cases hloads with
  | unreadable hload => exact accounts_unreadable hnew hrun hload hgrows hstats hfinal
  | rejected hload hcheck hverdict =>
      exact accounts_checked himporter hnew hrun hload hcheck hloaded hgrows hstats hfinal
  | refused hload hcheck hverdict hmerge =>
      exact accounts_checked himporter hnew hrun hload hcheck hloaded hgrows hstats hfinal
  | merged hload hcheck hverdict hmerge =>
      exact accounts_checked himporter hnew hrun hload hcheck hloaded hgrows hstats hfinal

theorem accounts_remember {s t : Session} {path : String} {kind : PackageKind}
    {entry : CacheEntry} (hnew : s.cache.get? path = none) (hloaded : entry.isLoaded = false)
    (ht : (s.recordKind path kind).remember path entry = t) (hgrows : Grows s t) :
    Accounts s t [] := by
  subst ht
  refine Accounts.nothing hgrows rfl rfl ?_ ?_
  · have hperm : (s.cache.insert path entry).values.Perm (entry :: s.cache.values) :=
      Table.values_insert_perm hnew
    show (s.cache.insert path entry).values.countP _ = s.cache.values.countP _
    rw [hperm.countP_eq, List.countP_cons_of_neg]
    rw [hloaded]
    exact Bool.false_ne_true
  · intro other e he hother
    rcases cached_of_remember he with ⟨_, rfl⟩ | hold
    · rw [hloaded] at hother
      cases hother
    · exact hold

theorem accounts_of_opens {importer : Importer}
    {nested : Request -> Session -> List Attempt} (hgrowing : Growing importer)
    (himporter : Journaled importer nested) {path : String} {origin : Option Path}
    {s t : Session} {r : Except Error (Option Package)} (hnew : ¬ s.Held path)
    (h : Opens importer path origin s r t) :
    Accounts s t
      (match s.sourceOf? path origin with
      | some (kind, dir) =>
          loadAttempts importer nested path kind dir ((s.recordKind path kind).enter path)
      | none => []) := by
  have hgrows := grows_of_opens hgrowing hnew h
  have hcache := (not_held_iff.mp hnew).1
  cases h with
  | misnamed hfound =>
      rw [sourceOf?_of_error hfound]
      exact Accounts.refl s
  | absent hfound hkind =>
      rw [sourceOf?_of_other hfound hkind rfl]
      exact accounts_remember hcache rfl rfl hgrows
  | system hfound hkind =>
      rw [sourceOf?_of_other hfound hkind rfl]
      refine accounts_remember hcache ?_ rfl hgrows
      show (systemPackage s.setup.registry path _).kind.isSource = false
      rw [kind_systemPackage]
      rfl
  | broken hsource hload hinvariant =>
      rw [hsource]
      refine accounts_of_loads himporter hnew (isSource_of_sourceOf? hsource).1 hload hgrows rfl ?_
      exact (if_pos hinvariant).symm
  | failed hsource hload hinvariant =>
      rw [hsource]
      refine accounts_of_loads himporter hnew (isSource_of_sourceOf? hsource).1 hload hgrows rfl ?_
      exact (if_neg (ne_true_of_eq_false hinvariant)).symm
  | resolved hsource hload =>
      rw [hsource]
      exact accounts_of_loads himporter hnew (isSource_of_sourceOf? hsource).1 hload hgrows rfl rfl

theorem attemptsWithin_of_held {s : Session} {path : String} (h : s.Held path) (bound : Nat)
    (origin : Option Path) : attemptsWithin bound path origin s = [] := by
  cases bound with
  | zero => rfl
  | succ bound =>
      have hheld : (s.cache.contains path || s.pending.contains path) = true := by
        rw [Bool.or_eq_true, Table.contains_iff, List.contains_iff_mem]
        exact h
      unfold attemptsWithin
      rw [if_pos hheld]

theorem attemptsWithin_of_new {s : Session} {path : String} (h : ¬ s.Held path) (bound : Nat)
    (origin : Option Path) :
    attemptsWithin (bound + 1) path origin s =
      match s.countRequest.sourceOf? path origin with
      | some (kind, dir) =>
          loadAttempts (importerWithin bound)
            (fun q s => attemptsWithin bound q.path (some q.dir) s) path kind dir
            ((s.countRequest.recordKind path kind).enter path)
      | none => [] := by
  have hheld : ¬ (s.cache.contains path || s.pending.contains path) = true := by
    rw [Bool.or_eq_true, Table.contains_iff, List.contains_iff_mem]
    exact h
  conv => lhs; unfold attemptsWithin
  rw [if_neg hheld]
  rfl

theorem accounts_countRequest (s : Session) : Accounts s s.countRequest [] :=
  Accounts.nothing (grows_countRequest s) rfl rfl rfl fun _ _ h _ => h

theorem accounts_countHit (s : Session) : Accounts s s.countHit [] :=
  Accounts.nothing (grows_countHit s) rfl rfl rfl fun _ _ h _ => h

theorem accounts_of_requests {bound : Nat}
    (himporter : forall n, n < bound -> Journaled (importerWithin n)
      (fun q s => attemptsWithin n q.path (some q.dir) s))
    {path : String} {origin : Option Path} {s t : Session} {r : Except Error (Option Package)}
    (h : Requests path origin s bound r t) :
    Accounts s t (attemptsWithin bound path origin s) := by
  cases h with
  | @cached _ entry hentry =>
      rw [attemptsWithin_of_held (Or.inl ⟨entry, hentry⟩)]
      exact (accounts_countRequest s).trans (accounts_countHit _)
  | cyclic hnew hpending =>
      rw [attemptsWithin_of_held (Or.inr hpending)]
      exact accounts_countRequest s
  | exhausted hnew => exact accounts_countRequest s
  | @opened bound _ _ hnew hopens =>
      rw [attemptsWithin_of_new hnew]
      have hopened := accounts_of_opens (growing_importerWithin bound)
        (himporter bound (Nat.lt_succ_self bound)) (s := s.countRequest) hnew hopens
      exact (accounts_countRequest s).trans hopened

theorem journaled_importerWithin (bound : Nat) :
    Journaled (importerWithin bound)
      (fun q s => attemptsWithin bound q.path (some q.dir) s) := by
  induction bound using Nat.strongRecOn with
  | ind bound ih =>
      intro q s
      exact accounts_of_requests ih (requests_of_run rfl)

theorem accounts_afterRequest (path : String) (origin : Option Path) (s : Session) :
    Accounts s (s.afterRequest path origin)
      (attemptsWithin (s.setup.tree.importBound + 1) path origin s) := by
  unfold afterRequest
  rw [run_resolveFrom]
  exact accounts_of_requests (fun n _ => journaled_importerWithin n) (requests_of_run rfl)

theorem accounts_perform (op : Operation) (s : Session) :
    Accounts s (op.perform s) (attemptsOf op s) := by
  rw [Operation.perform_eq]
  unfold attemptsOf
  cases op.request? s with
  | none => exact Accounts.refl s
  | some request => exact accounts_afterRequest request.1 request.2 s

theorem accounts_attemptsFrom (ops : List Operation) (s : Session) :
    Accounts s (ops.foldl (fun s op => op.perform s) s) (attemptsFrom ops s) := by
  induction ops generalizing s with
  | nil => exact Accounts.refl s
  | cons op rest ih => exact (accounts_perform op s).trans (ih (op.perform s))

theorem accounts_after (setup : Setup) (ops : List Operation) :
    Accounts (start setup) (after setup ops) (attempts setup ops) :=
  accounts_attemptsFrom ops (start setup)

/-!
# What the journal tells
-/

namespace Accounts

theorem loads_eq {s t : Session} {log : List Attempt} (h : Accounts s t log)
    (hstart : s.stats.loads = 0) (hentries : s.loadedEntries = 0) :
    t.stats.loads = t.loadedEntries + log.countP fun a => a.isBroken := by
  have hlength : log.length = (log.countP fun a => a.isBroken) + log.countP fun a => !a.isBroken :=
    by simpa using List.length_eq_countP_add_countP (l := log) fun a => a.isBroken
  have hloads := h.loads
  have hloaded := h.loaded
  omega

/-- Two attempts for one path need a broken invariant. -/
theorem countP_path_le_one {s t : Session} {log : List Attempt} (h : Accounts s t log)
    {path : String} (hpath : forall a, a ∈ log -> a.path = path -> a.isBroken = false) :
    (log.countP fun a => a.path == path) ≤ 1 := by
  rw [List.countP_eq_length_filter]
  have hlast := h.last.filter fun a => a.path == path
  have hmem : forall a, a ∈ log.filter (fun a => a.path == path) -> a ∈ log ∧ a.path = path := by
    intro a ha
    rw [List.mem_filter, beq_iff_eq] at ha
    exact ha
  generalize log.filter (fun a => a.path == path) = found at hlast hmem
  match found, hlast, hmem with
  | [], _, _ => exact Nat.zero_le 1
  | [_], _, _ => exact Nat.le_refl 1
  | a :: b :: rest, hlast, hmem =>
      rcases hmem a List.mem_cons_self with ⟨ha, hapath⟩
      rcases hmem b (List.mem_cons_of_mem _ List.mem_cons_self) with ⟨_, hbpath⟩
      -- The earlier attempt left no entry, or the later one would have been a hit.
      have hbroken := List.rel_of_pairwise_cons hlast List.mem_cons_self
        (hapath.trans hbpath.symm)
      rw [hpath a ha hapath] at hbroken
      cases hbroken

end Accounts

end Session
end GoAtlas
