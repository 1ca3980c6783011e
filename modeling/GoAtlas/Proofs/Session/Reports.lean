import GoAtlas.Proofs.Session.Attempts

/-!
# Reports

Every run of the checker reports what it complains about.  The journal of reports lists the runs
in the order in which they end, so those inside a check come before the check itself, and the
errors that a session captures are those of its reports.
-/

namespace GoAtlas

/-- What a run of the checker reports about the package at a path. -/
structure Report where
  path : String
  errors : List TypeError

namespace Session

/-!
# The journal
-/

def reportOf (importer : Importer) (path : String) (source : LoadedPackage) (s : Session) :
    Report :=
  ⟨path, ((s.setup.checker source).run importer s.countLoad.countCheck).1.errors⟩

def loadReports (importer : Importer) (nested : Request -> Session -> List Report) (path : String)
    (dir : Path) (s : Session) : List Report :=
  match Loading.load s.setup.tree s.setup.options.includeTests dir path with
  | .error _ => []
  | .ok source =>
      (s.setup.checker source).notes importer nested s.countLoad.countCheck ++
        [reportOf importer path source s]

def reportsWithin : Nat -> String -> Option Path -> Session -> List Report
  | 0, _, _, _ => []
  | bound + 1, path, origin, s =>
      if s.cache.contains path || s.pending.contains path then []
      else
        match s.sourceOf? path origin with
        | some (kind, dir) =>
            loadReports (importerWithin bound)
              (fun q s => reportsWithin bound q.path (some q.dir) s) path dir
              ((s.countRequest.recordKind path kind).enter path)
        | none => []

def reportsOf (op : Operation) (s : Session) : List Report :=
  match op.request? s with
  | some (path, origin) => reportsWithin (s.setup.tree.importBound + 1) path origin s
  | none => []

def reportsFrom : List Operation -> Session -> List Report
  | [], _ => []
  | op :: rest, s => reportsOf op s ++ reportsFrom rest (op.perform s)

def reports (setup : Setup) (ops : List Operation) : List Report :=
  reportsFrom ops (start setup)

theorem reportsWithin_of_held {s : Session} {path : String} (h : s.Held path) (bound : Nat)
    (origin : Option Path) : reportsWithin bound path origin s = [] := by
  cases bound with
  | zero => rfl
  | succ bound =>
      have hheld : (s.cache.contains path || s.pending.contains path) = true := by
        rw [Bool.or_eq_true, Table.contains_iff, List.contains_iff_mem]
        exact h
      unfold reportsWithin
      rw [if_pos hheld]

theorem reportsWithin_of_new {s : Session} {path : String} (h : ¬ s.Held path) (bound : Nat)
    (origin : Option Path) :
    reportsWithin (bound + 1) path origin s =
      match s.countRequest.sourceOf? path origin with
      | some (kind, dir) =>
          loadReports (importerWithin bound)
            (fun q s => reportsWithin bound q.path (some q.dir) s) path dir
            ((s.countRequest.recordKind path kind).enter path)
      | none => [] := by
  have hheld : ¬ (s.cache.contains path || s.pending.contains path) = true := by
    rw [Bool.or_eq_true, Table.contains_iff, List.contains_iff_mem]
    exact h
  conv => lhs; unfold reportsWithin
  rw [if_neg hheld]
  rfl

theorem loadReports_of_checked {importer : Importer}
    {nested : Request -> Session -> List Report} {path : String} {dir : Path}
    {s t : Session} {source : LoadedPackage} {outcome : CheckOutcome}
    (hload : Loading.load s.setup.tree s.setup.options.includeTests dir path = .ok source)
    (hcheck : (s.setup.checker source).run importer s.countLoad.countCheck = (outcome, t)) :
    loadReports importer nested path dir s =
      (s.setup.checker source).notes importer nested s.countLoad.countCheck ++
        [⟨path, outcome.errors⟩] := by
  unfold loadReports
  rw [hload]
  dsimp only
  unfold reportOf
  rw [hcheck]

theorem loadReports_of_unreadable {importer : Importer}
    {nested : Request -> Session -> List Report} {path : String} {dir : Path}
    {s : Session} {e : Error}
    (hload : Loading.load s.setup.tree s.setup.options.includeTests dir path = .error e) :
    loadReports importer nested path dir s = [] := by
  unfold loadReports
  rw [hload]

/-!
# Relations along the journal
-/

/-- A relation between the sessions before and after some work and its reports, which can be
chained. -/
structure Chained (R : Session -> Session -> List Report -> Prop) : Prop where
  refl : forall s, R s s []
  trans : forall s t u log more, R s t log -> R t u more -> R s u (log ++ more)

theorem Chained.notes {R : Session -> Session -> List Report -> Prop} (h : Chained R)
    {importer : Importer} {nested : Request -> Session -> List Report}
    (himporter : forall q s, R s (importer q s).2 (nested q s))
    {checker : Checker} {source : LoadedPackage} {s t : Session} {outcome : CheckOutcome}
    (hcheck : (checker source).run importer s = (outcome, t)) :
    R s t ((checker source).notes importer nested s) := by
  have hrun := Inquiry.run_notes h.refl h.trans himporter (checker source) s
  rw [hcheck] at hrun
  exact hrun

theorem Chained.after {R : Session -> Session -> List Report -> Prop} (h : Chained R)
    (hrequest : forall s path origin, R s (s.afterRequest path origin)
      (reportsWithin (s.setup.tree.importBound + 1) path origin s))
    (setup : Setup) (ops : List Operation) :
    R (start setup) (after setup ops) (reports setup ops) := by
  have hperform : forall op s, R s (op.perform s) (reportsOf op s) := by
    intro op s
    rw [Operation.perform_eq]
    unfold reportsOf
    cases op.request? s with
    | none => exact h.refl s
    | some request => exact hrequest s request.1 request.2
  have hall : forall ops s, R s (ops.foldl (fun s op => op.perform s) s) (reportsFrom ops s) := by
    intro ops
    induction ops with
    | nil => exact h.refl
    | cons op rest ih =>
        intro s
        exact h.trans _ _ _ _ _ (hperform op s) (ih (op.perform s))
  exact hall ops (start setup)

/-!
# What is captured
-/

def Captures (s t : Session) (log : List Report) : Prop :=
  t.captured = s.captured ++ log.flatMap fun r => r.errors

theorem captures_nothing {s t : Session} (h : t.captured = s.captured) : Captures s t [] :=
  h.trans (List.append_nil _).symm

theorem chained_captures : Chained Captures where
  refl _ := captures_nothing rfl
  trans s t u log more hst htu := by
    unfold Captures at *
    rw [htu, hst, List.flatMap_append, List.append_assoc]

section Capturing

variable {importer : Importer} {nested : Request -> Session -> List Report}
  {path : String} {kind : PackageKind} {dir : Path} {origin : Option Path} {s t : Session}

theorem captures_of_check
    (himporter : forall q s, Captures s (importer q s).2 (nested q s))
    {source : LoadedPackage} {outcome : CheckOutcome}
    (hload : Loading.load s.setup.tree s.setup.options.includeTests dir path = .ok source)
    (hcheck : (s.setup.checker source).run importer s.countLoad.countCheck = (outcome, t)) :
    Captures s (t.capture outcome.errors) (loadReports importer nested path dir s) := by
  rw [loadReports_of_checked hload hcheck]
  refine chained_captures.trans s t _ _ _ (chained_captures.notes himporter hcheck) ?_
  show t.captured ++ outcome.errors = t.captured ++ (outcome.errors ++ [])
  rw [List.append_nil]

theorem captures_of_loads
    (himporter : forall q s, Captures s (importer q s).2 (nested q s))
    {r : Except Error Package} (h : Loads importer path kind dir s r t) :
    Captures s t (loadReports importer nested path dir s) := by
  cases h with
  | unreadable hload =>
      rw [loadReports_of_unreadable hload]
      exact captures_nothing rfl
  | rejected hload hcheck hverdict => exact captures_of_check himporter hload hcheck
  | refused hload hcheck hverdict hmerge => exact captures_of_check himporter hload hcheck
  | merged hload hcheck hverdict hmerge => exact captures_of_check himporter hload hcheck

theorem captures_of_opens
    (himporter : forall q s, Captures s (importer q s).2 (nested q s))
    {r : Except Error (Option Package)} (h : Opens importer path origin s r t) :
    Captures s t
      (match s.sourceOf? path origin with
      | some (kind, dir) =>
          loadReports importer nested path dir ((s.recordKind path kind).enter path)
      | none => []) := by
  cases h with
  | misnamed hfound =>
      rw [sourceOf?_of_error hfound]
      exact captures_nothing rfl
  | absent hfound hkind =>
      rw [sourceOf?_of_other hfound hkind rfl]
      exact captures_nothing rfl
  | system hfound hkind =>
      rw [sourceOf?_of_other hfound hkind rfl]
      exact captures_nothing rfl
  | broken hsource hload hinvariant =>
      rw [hsource]
      exact (captures_of_loads himporter (loads_of_run hload) :)
  | failed hsource hload hinvariant =>
      rw [hsource]
      exact (captures_of_loads himporter (loads_of_run hload) :)
  | resolved hsource hload =>
      rw [hsource]
      exact (captures_of_loads himporter (loads_of_run hload) :)

end Capturing

theorem captures_of_requests {bound : Nat}
    (himporter : forall n, n < bound -> forall q s,
      Captures s (importerWithin n q s).2 (reportsWithin n q.path (some q.dir) s))
    {path : String} {origin : Option Path} {s t : Session} {r : Except Error (Option Package)}
    (h : Requests path origin s bound r t) :
    Captures s t (reportsWithin bound path origin s) := by
  cases h with
  | @cached _ entry hentry =>
      rw [reportsWithin_of_held (Or.inl ⟨entry, hentry⟩)]
      exact captures_nothing rfl
  | cyclic hnew hpending =>
      rw [reportsWithin_of_held (Or.inr hpending)]
      exact captures_nothing rfl
  | exhausted hnew => exact captures_nothing rfl
  | @opened bound _ _ hnew hopens =>
      rw [reportsWithin_of_new hnew]
      exact captures_of_opens (s := s.countRequest)
        (himporter bound (Nat.lt_succ_self bound)) hopens

theorem captures_importerWithin (bound : Nat) (q : Request) (s : Session) :
    Captures s (importerWithin bound q s).2 (reportsWithin bound q.path (some q.dir) s) := by
  induction bound using Nat.strongRecOn generalizing q s with
  | ind bound ih => exact captures_of_requests ih (requests_of_run rfl)

theorem captured_after (setup : Setup) (ops : List Operation) :
    (after setup ops).captured = (reports setup ops).flatMap fun r => r.errors := by
  have hcaptures := chained_captures.after (fun s path origin => by
    unfold afterRequest
    rw [run_resolveFrom]
    exact captures_of_requests (fun n _ => captures_importerWithin n) (requests_of_run rfl))
    setup ops
  exact hcaptures

end Session
end GoAtlas
