import GoAtlas.Proofs.Session.Telling

/-!
# The calls of a session

The calls of a session are the requests made between operations and those made by checks inside
them.  A call that has sources checked ends in one of three ways: the policy rejects the
outcome, the index refuses the types, or the package is kept.
-/

namespace GoAtlas

namespace Session
namespace Call

/-!
# How calls end
-/

def result (c : Call) : Except Error (Option Package) :=
  ((resolveFrom c.path c.origin).run c.session).1

inductive Ends (c : Call) : Except Error (Option Package) -> Session -> Prop where
  | cached {entry : CacheEntry} (hentry : c.session.cache.get? c.path = some entry) :
      Ends c (remembered c.path entry) c.session.countRequest.countHit
  | cyclic (hnew : c.session.cache.get? c.path = none) (hpending : c.path ∈ c.session.pending) :
      Ends c (.error (.importCycle (c.session.pending ++ [c.path]))) c.session.countRequest
  | opened {r : Except Error (Option Package)} {t : Session} (hnew : ¬ c.session.Held c.path)
      (hopens : Opens importerFrom c.path c.origin c.session.countRequest r t) : Ends c r t

theorem ends_of_run {c : Call} (hc : Tidy c.session) {r : Except Error (Option Package)}
    {t : Session} (h : (resolveFrom c.path c.origin).run c.session = (r, t)) : c.Ends r t := by
  rw [run_resolveFrom_step c.path c.origin hc] at h
  cases hentry : c.session.cache.get? c.path with
  | some entry =>
      rw [run_resolveStep_cached hentry] at h
      cases h
      exact Ends.cached hentry
  | none =>
      by_cases hpending : c.path ∈ c.session.pending
      · rw [run_resolveStep_cyclic hentry hpending] at h
        cases h
        exact Ends.cyclic hentry hpending
      · have hnew : ¬ c.session.Held c.path := not_held_iff.mpr ⟨hentry, hpending⟩
        rw [run_resolveStep_new hnew] at h
        exact Ends.opened hnew (opens_of_run h)

theorem ends_of_tidy {c : Call} (hc : Tidy c.session) : c.Ends c.result c.finish :=
  ends_of_run hc rfl

/-- The call has its sources checked, with this outcome and in the session `t` at the end of the
check. -/
def Runs (c : Call) (source : LoadedPackage) (outcome : CheckOutcome) (t : Session) : Prop :=
  exists s, c.Checks source s ∧
    (c.session.setup.checker source).run importerFrom s = (outcome, t)

inductive Judges (c : Call) (source : LoadedPackage) (outcome : CheckOutcome) (t : Session) :
    Except Error (Option Package) -> Session -> Prop where
  | rejected {e : Error} (hverdict : verdict c.session.setup.options c.path outcome = .error e) :
      Judges c source outcome t (.error e)
        ((t.capture outcome.errors).leave.remember c.path (.failed e.message))
  | refused {e : Error} (hverdict : verdict c.session.setup.options c.path outcome = .ok ())
      (hmerge : t.index.merge c.path outcome.package.types = .error e) :
      Judges c source outcome t (.error e) (t.capture outcome.errors).leave
  | kept {index : Index} {kind : PackageKind} (hsource : kind.isSource = true)
      (hverdict : verdict c.session.setup.options c.path outcome = .ok ())
      (hmerge : t.index.merge c.path outcome.package.types = .ok index) :
      Judges c source outcome t
        (.ok (some (Package.ofChecked c.path kind (some source) outcome.package)))
        (({ t.capture outcome.errors with index := index } : Session).leave.remember c.path
          (.resolved (Package.ofChecked c.path kind (some source) outcome.package)))

theorem judges_of_opens {c : Call} {source : LoadedPackage} {outcome : CheckOutcome}
    {t u : Session} {r : Except Error (Option Package)} (h : c.Runs source outcome t)
    (hopens : Opens importerFrom c.path c.origin c.session.countRequest r u) :
    c.Judges source outcome t r u := by
  rcases h with ⟨s, ⟨_, kind, dir, hsource, hload, rfl⟩, hcheck⟩
  have hsource' : c.session.countRequest.sourceOf? c.path c.origin = some (kind, dir) := hsource
  cases hopens with
  | misnamed hfound => cases (sourceOf?_of_error hfound).symm.trans hsource'
  | absent hfound hkind => cases (sourceOf?_of_other hfound hkind rfl).symm.trans hsource'
  | system hfound hkind => cases (sourceOf?_of_other hfound hkind rfl).symm.trans hsource'
  | broken hother hrun hinvariant =>
      cases hother.symm.trans hsource'
      cases loads_of_run hrun with
      | unreadable hload' => cases hload'.symm.trans hload
      | rejected hload' hcheck' hverdict =>
          rw [isInvariant_of_verdict hverdict] at hinvariant
          cases hinvariant
      | refused hload' hcheck' hverdict hmerge =>
          cases hload'.symm.trans hload
          cases hcheck'.symm.trans hcheck
          exact Judges.refused hverdict hmerge
  | failed hother hrun hinvariant =>
      cases hother.symm.trans hsource'
      cases loads_of_run hrun with
      | unreadable hload' => cases hload'.symm.trans hload
      | rejected hload' hcheck' hverdict =>
          cases hload'.symm.trans hload
          cases hcheck'.symm.trans hcheck
          exact Judges.rejected hverdict
      | refused hload' hcheck' hverdict hmerge =>
          rw [Index.isInvariant_of_merge hmerge] at hinvariant
          cases hinvariant
  | resolved hother hrun =>
      cases hother.symm.trans hsource'
      cases loads_of_run hrun with
      | merged hload' hcheck' hverdict hmerge =>
          cases hload'.symm.trans hload
          cases hcheck'.symm.trans hcheck
          exact Judges.kept (isSource_of_sourceOf? hsource).1 hverdict hmerge

theorem judges_of_runs {c : Call} {source : LoadedPackage} {outcome : CheckOutcome} {t : Session}
    (hc : Tidy c.session) (h : c.Runs source outcome t) :
    c.Judges source outcome t c.result c.finish := by
  have hnew : ¬ c.session.Held c.path := by
    rcases h with ⟨s, ⟨hnew, _⟩, _⟩
    exact hnew
  have hends := ends_of_tidy hc
  generalize c.result = r, c.finish = u at hends ⊢
  cases hends with
  | cached hentry => exact absurd (Or.inl ⟨_, hentry⟩) hnew
  | cyclic _ hpending => exact absurd (Or.inr hpending) hnew
  | opened _ hopens => exact judges_of_opens h hopens

/-!
# The calls that arise
-/

/-- The call is made between two operations of a session, or by a check inside such a call. -/
inductive Arises (setup : Setup) : Call -> Prop where
  | top (ops : List Operation) (path : String) (origin : Option Path) :
      Arises setup ⟨path, origin, after setup ops⟩
  | nested {outer inner : Call} (houter : Arises setup outer) (hmakes : outer.Makes inner) :
      Arises setup inner

namespace Arises

theorem tidy {setup : Setup} {c : Call} (h : c.Arises setup) : Tidy c.session := by
  induction h with
  | top ops path origin => exact Tidy.of_idle (pending_after setup ops)
  | nested _ hmakes ih => exact (tidy_of_makes ih hmakes).1

theorem setup_eq {setup : Setup} {c : Call} (h : c.Arises setup) : c.session.setup = setup := by
  induction h with
  | top ops path origin => exact setup_after setup ops
  | nested houter hmakes ih => exact (tidy_of_makes houter.tidy hmakes).2.1.trans ih

end Arises

end Call
end Session
end GoAtlas
