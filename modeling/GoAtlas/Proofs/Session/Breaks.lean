import GoAtlas.Proofs.Session.Calls

/-!
# Broken invariants

A broken invariant is reported by the call for the package whose types the index refuses, and by
no other.  The check that made this call is told about a failed import, and its own call goes by
the policy.  With the Go checker the index never refuses types, so no call of a session reports
a broken invariant.
-/

namespace GoAtlas

namespace Provenance

theorem isInvariant_of_resolve {t : FileTree} {roots : SearchRoots} {path : String}
    {origin : Option Path} {e : Error} (h : resolve t roots path origin = .error e) :
    e.isInvariant = false := by
  unfold resolve validate at h
  by_cases hvalid : isValid path = true
  · rw [if_pos hvalid] at h
    simp only [bind, Except.bind] at h
    split at h
    · cases h
    · cases h
  · rw [if_neg hvalid] at h
    cases h
    rfl

end Provenance

namespace Session
namespace Call

/-- The policy accepts the outcome of the call's check, but the index refuses its types. -/
def Breaks (c : Call) (e : Error) : Prop :=
  exists source outcome t, c.Runs source outcome t ∧
    verdict c.session.setup.options c.path outcome = .ok () ∧
    t.index.merge c.path outcome.package.types = .error e

theorem isInvariant_of_breaks {c : Call} {e : Error} (hc : Tidy c.session) (h : c.Breaks e) :
    c.result = .error e ∧ e.isInvariant = true := by
  rcases h with ⟨source, outcome, t, hruns, hverdict, hmerge⟩
  refine ⟨?_, Index.isInvariant_of_merge hmerge⟩
  have hjudges := judges_of_runs hc hruns
  generalize c.result = r, c.finish = u at hjudges ⊢
  cases hjudges with
  | rejected hverdict' => cases hverdict'.symm.trans hverdict
  | refused _ hmerge' =>
      cases hmerge'.symm.trans hmerge
      rfl
  | kept _ _ hmerge' => cases hmerge'.symm.trans hmerge

theorem breaks_of_opens {c : Call} {e : Error} {t : Session} (hnew : ¬ c.session.Held c.path)
    (h : Opens importerFrom c.path c.origin c.session.countRequest (.error e) t)
    (hinvariant : e.isInvariant = true) : c.Breaks e := by
  cases h with
  | misnamed hfound =>
      rw [Provenance.isInvariant_of_resolve hfound] at hinvariant
      cases hinvariant
  | failed _ _ hfalse => cases hfalse.symm.trans hinvariant
  | @broken kind dir _ _ hsource hrun _ =>
      cases loads_of_run hrun with
      | unreadable hload =>
          rw [isInvariant_of_load hload] at hinvariant
          cases hinvariant
      | rejected hload hcheck hverdict =>
          rw [isInvariant_of_verdict hverdict] at hinvariant
          cases hinvariant
      | refused hload hcheck hverdict hmerge =>
          exact ⟨_, _, _, ⟨_, ⟨hnew, kind, dir, hsource, hload, rfl⟩, hcheck⟩, hverdict, hmerge⟩

theorem breaks_of_isInvariant {c : Call} {e : Error} (hc : Tidy c.session)
    (hresult : c.result = .error e) (hinvariant : e.isInvariant = true) : c.Breaks e := by
  have hends := ends_of_tidy hc
  generalize c.result = r, c.finish = u at hends hresult
  cases hends with
  | @cached entry hentry =>
      cases entry with
      | resolved p => cases hresult
      | absent => cases hresult
      | failed cause =>
          cases hresult
          cases hinvariant
  | cyclic hnew hpending =>
      cases hresult
      cases hinvariant
  | opened hnew hopens =>
      subst hresult
      exact breaks_of_opens hnew hopens hinvariant

end Call

/-- What calls tell about broken invariants. -/
structure BreaksReported (setup : Setup) : Prop where
  /-- A call reports a broken invariant exactly if the types of its own package are refused. -/
  own : forall c : Call, c.Arises setup -> forall e,
    c.result = .error e ∧ e.isInvariant = true ↔ c.Breaks e
  /-- Inside a check this is one more answer to the checker. -/
  told : forall outer inner : Call, outer.Arises setup -> outer.Makes inner -> forall e,
    inner.Breaks e -> exists dir, inner.origin = some dir ∧
      (importerFrom ⟨inner.path, dir⟩ inner.session).1 = .error e
  resolve : forall ops path, ((Session.resolve path).run (after setup ops)).1 =
    Call.result ⟨path, Operation.home (after setup ops) path, after setup ops⟩
  importFrom : forall ops path dir, ((Session.importFrom path dir).run (after setup ops)).1 =
    Call.result ⟨path, some dir, after setup ops⟩

theorem breaksReported (setup : Setup) : BreaksReported setup where
  own c hc e := by
    constructor
    · rintro ⟨hresult, hinvariant⟩
      exact Call.breaks_of_isInvariant hc.tidy hresult hinvariant
    · exact Call.isInvariant_of_breaks hc.tidy
  told outer inner houter hmakes e hbreaks := by
    have hinner : inner.Arises setup := .nested houter hmakes
    have hresult := (Call.isInvariant_of_breaks hinner.tidy hbreaks).1
    rcases hmakes with ⟨source, s, dir, _, horigin, _⟩
    refine ⟨dir, horigin, ?_⟩
    have hrun : inner.result = ((resolveFrom inner.path (some dir)).run inner.session).1 :=
      horigin ▸ rfl
    show answer inner.path ((resolveFrom inner.path (some dir)).run inner.session).1 = _
    rw [← hrun, hresult]
    rfl
  resolve ops path := by
    rw [run_resolve]
    rfl
  importFrom ops path dir := rfl

/-!
# A swallowed break
-/

def doublingTree : FileTree :=
  ⟨[(["w", "a", "a.go"], Text.encode "package a\n"),
    (["w", "b", "b.go"], Text.encode "package b\n")], [], []⟩

/-- `a` imports `b`, and `b` declares a type twice. -/
def doublingChecker : Checker := fun source =>
  if source.importPath = "a" then do
    match ← Inquiry.request ⟨"b", source.dir⟩ with
    | .ok _ => return ⟨CheckedPackage.bare "a", []⟩
    | .error e => return ⟨CheckedPackage.bare "a", [⟨.failedImport "b" e, false, none, none⟩]⟩
  else
    let d : TypeDef := ⟨.declared "b" "T", .basic .int, [], false, none⟩
    return ⟨{ CheckedPackage.bare "b" with types := [d, d] }, []⟩

def doublingRun (allowed : Bool) : Except Error (Option Package) × Session :=
  (resolve "a").run (start ⟨doublingTree, ⟨some ⟨"/w"⟩, none, "vendor"⟩, ⟨false, allowed⟩,
    doublingChecker, Registry.standard⟩)

def failure? {α : Type} : Except Error α -> Option Error
  | .ok _ => none
  | .error e => some e

def cause? (e : TypeError) : Option Error :=
  match e.complaint with
  | .failedImport _ cause => some cause
  | _ => none

/-- The check of `a` hears of the broken invariant, the caller does not. -/
theorem break_swallowed :
    (forall allowed, (doublingRun allowed).2.captured.map cause? =
      [some (.invariant "double-up: b.T")]) ∧
    failure? (doublingRun true).1 = none ∧
    failure? (doublingRun false).1 = some (.typeCheck "a"
      "could not import b (invariant violated: double-up: b.T)") := by
  decide +kernel

/-!
# The Go checker
-/

theorem room_start (s : Session) : s.Room (s.setup.tree.importBound + 1) := by
  unfold Room
  omega

theorem Unbroken.afterRequest {s : Session} (hs : s.Unbroken) (path : String)
    (origin : Option Path) :
    (s.afterRequest path origin).Unbroken ∧
      Told s.pending (s.afterRequest path origin) path
        (answer path ((resolveFrom path origin).run s).1) := by
  unfold Session.afterRequest
  rw [run_resolveFrom]
  exact unbroken_of_requests (fun n _ => telling_importerWithin n) hs s.room_start
    (requests_of_run rfl)

theorem telling_importerFrom (bound : Nat) : Telling bound importerFrom :=
  fun q _ hs _ => hs.afterRequest q.path (some q.dir)

theorem unbroken_after {setup : Setup} (h : setup.checker = goChecker) (ops : List Operation) :
    (after setup ops).Unbroken :=
  after_induction (unbroken_start h) (fun _ path origin hs => (hs.afterRequest path origin).1) ops

namespace Call

theorem unbroken_of_checks {c : Call} {source : LoadedPackage} {s : Session}
    (hc : c.session.Unbroken) (h : c.Checks source s) : s.Unbroken := by
  rcases h with ⟨hnew, kind, dir, hsource, _, rfl⟩
  have hcounted : c.session.countRequest.Unbroken := hc.countRequest
  have hstart : ¬ c.session.countRequest.Held c.path := hnew
  exact hcounted.checkStart hstart hsource

theorem unbroken_of_makes {outer inner : Call} (houter : outer.session.Unbroken)
    (h : outer.Makes inner) : inner.session.Unbroken := by
  rcases h with ⟨source, s, dir, hchecks, _, hasks⟩
  exact hasks.rel (R := Keeps Unbroken) (fun _ h => h) (fun _ _ _ hst htu h => htu (hst h))
    (fun q _ ht => (ht.afterRequest q.path (some q.dir)).1) (unbroken_of_checks houter hchecks)

theorem Arises.unbroken {setup : Setup} {c : Call} (hchecker : setup.checker = goChecker)
    (h : c.Arises setup) : c.session.Unbroken := by
  induction h with
  | top ops path origin => exact unbroken_after hchecker ops
  | nested _ hmakes ih => exact unbroken_of_makes ih hmakes

theorem not_breaks_of_unbroken {c : Call} (hc : c.session.Unbroken) (e : Error) :
    ¬ c.Breaks e := by
  rintro ⟨source, outcome, t, ⟨s, hchecks, hcheck⟩, _, hmerge⟩
  have hsetup := (tidy_of_checks hc.tidy hchecks).2.1
  have hs := unbroken_of_checks hc hchecks
  rw [← hsetup] at hcheck
  rcases told_of_check growing_importerFrom (telling_importerFrom _) hs s.room_start hcheck with
    ⟨hunbroken, answers, rfl, _⟩
  have hgrows := grows_check growing_importerFrom hcheck
  rcases hchecks with ⟨_, kind, dir, _, hload, rfl⟩
  have hpending : c.path ∈ t.pending := by
    rw [hgrows.pending]
    exact List.mem_append_right _ List.mem_cons_self
  have haccepts := hunbroken.accepts hload hpending answers
  cases (Index.merge_eq_ok_iff.mpr ⟨haccepts, rfl⟩).symm.trans hmerge

end Call

/-- No call of a session reports a broken invariant, between operations or inside a check. -/
structure Sturdy (setup : Setup) : Prop where
  resolve : forall ops path e,
    ((Session.resolve path).run (after setup ops)).1 = .error e -> e.isInvariant = false
  importFrom : forall ops path dir e,
    ((Session.importFrom path dir).run (after setup ops)).1 = .error e -> e.isInvariant = false
  nested : forall c : Call, c.Arises setup -> forall e,
    c.result = .error e -> e.isInvariant = false

theorem sturdy_goChecker (tree : FileTree) (roots : SearchRoots) (options : Options)
    (registry : Registry) : Sturdy ⟨tree, roots, options, goChecker, registry⟩ := by
  have hall : forall c : Call, c.Arises ⟨tree, roots, options, goChecker, registry⟩ -> forall e,
      c.result = .error e -> e.isInvariant = false := by
    intro c hc e hresult
    apply eq_false_of_ne_true
    intro hinvariant
    exact Call.not_breaks_of_unbroken (hc.unbroken rfl) e
      (Call.breaks_of_isInvariant hc.tidy hresult hinvariant)
  constructor
  · intro ops path e h
    rw [run_resolve] at h
    exact hall _ (.top ops path _) e h
  · intro ops path dir e h
    exact hall _ (.top ops path (some dir)) e h
  · exact hall

end Session
end GoAtlas
