import GoAtlas.Proofs.Session.Calls
import GoAtlas.Proofs.Session.Reports

/-!
# The policy on errors

What a check complains about is delivered whatever the policy is: the journal of a call lists
the reports of the calls inside its check, one after another, and then its own.  The policy only
decides what becomes of the package.
-/

namespace GoAtlas

namespace Inquiry

variable {ρ α ε σ : Type}

theorem notes_congr {P : σ -> Prop} {importer other : ρ -> σ -> Answer × σ}
    {note note' : ρ -> σ -> List ε} (hkeep : forall q s, P s -> P (importer q s).2)
    (heq : forall q s, P s -> importer q s = other q s)
    (hnote : forall q s, P s -> note q s = note' q s) (i : Inquiry ρ α) {s : σ}
    (hs : P s) : i.notes importer note s = i.notes other note' s := by
  induction i generalizing s with
  | done a => rfl
  | ask q next ih =>
      show note q s ++ (next (importer q s).1).notes importer note (importer q s).2 =
        note' q s ++ (next (other q s).1).notes other note' (other q s).2
      rw [← heq q s hs, ← hnote q s hs, ih _ (hkeep q s hs)]

end Inquiry

namespace Session

/-!
# Journals without a bound
-/

def Call.reports (c : Call) : List Report :=
  reportsWithin (c.session.setup.tree.importBound + 1) c.path c.origin c.session

def Call.reportsInside (c : Call) (source : LoadedPackage) (s : Session) : List Report :=
  (c.session.setup.checker source).notes importerFrom
    (fun q t => Call.reports ⟨q.path, some q.dir, t⟩) s

theorem importerWithin_eq {bound : Nat} {s : Session} (hs : Tidy s)
    (hroom : s.Room bound) (q : Request) :
    importerWithin bound q s = importerFrom q s := by
  unfold Room at hroom
  have hrun : (resolveWithin bound q.path (some q.dir)).run s =
      (resolveFrom q.path (some q.dir)).run s := by
    rw [run_resolveFrom]
    exact run_resolveWithin_eq hs hroom (by omega)
  unfold importerWithin importerFrom afterRequest
  rw [hrun]

theorem Room.inside {bound : Nat} {s t : Session} {path : String} {kind : PackageKind}
    (h : s.Room (bound + 1)) (ht : Grows (s.opened path kind) t) : t.Room bound := by
  unfold Room at h ⊢
  have hlength : (s.opened path kind).pending.length = s.pending.length + 1 := List.length_append
  rw [ht.setup, ht.pending, hlength]
  show s.setup.tree.importBound < _
  omega

theorem loadReports_congr {importer other : Importer}
    {nested nested' : Request -> Session -> List Report} {path : String} {dir : Path}
    {s : Session} {P : Session -> Prop}
    (hkeep : forall q t, P t -> P (importer q t).2)
    (himporter : forall q t, P t -> importer q t = other q t)
    (hnested : forall q t, P t -> nested q t = nested' q t)
    (hs : P s.countLoad.countCheck) :
    loadReports importer nested path dir s = loadReports other nested' path dir s := by
  unfold loadReports
  cases Loading.load s.setup.tree s.setup.options.includeTests dir path with
  | error e => rfl
  | ok source =>
      dsimp only
      unfold reportOf
      rw [Inquiry.notes_congr hkeep himporter hnested _ hs,
        Inquiry.run_congr hkeep himporter _ hs]

/-- All bounds with room for what is left lead to the same reports. -/
theorem reportsWithin_eq {m n : Nat} {path : String} {origin : Option Path} {s : Session}
    (hs : Tidy s) (hm : s.Room m) (hn : s.Room n) :
    reportsWithin m path origin s = reportsWithin n path origin s := by
  induction m generalizing n path origin s with
  | zero => exact absurd hm hs.not_room_zero
  | succ m ih =>
      cases n with
      | zero => exact absurd hn hs.not_room_zero
      | succ n =>
          by_cases hheld : s.Held path
          · rw [reportsWithin_of_held hheld, reportsWithin_of_held hheld]
          · rw [reportsWithin_of_new hheld, reportsWithin_of_new hheld]
            cases hsource : s.countRequest.sourceOf? path origin with
            | none => rfl
            | some found =>
                have htidy : Tidy (s.opened path found.1) := tidy_opened hs hheld hsource
                -- Wherever the check gets to, its session has grown from the one it began in.
                refine loadReports_congr (P := Grows (s.opened path found.1)) ?_ ?_ ?_ ?_
                · intro q t ht
                  exact ht.trans (growing_importerWithin m q t)
                · intro q t ht
                  rw [importerWithin_eq (htidy.of_grows ht) (hm.inside ht),
                    importerWithin_eq (htidy.of_grows ht) (hn.inside ht)]
                · intro q t ht
                  exact ih (htidy.of_grows ht) (hm.inside ht) (hn.inside ht)
                · exact (grows_countLoad _).trans (grows_countCheck _)

namespace Call

theorem reports_of_unchecked {c : Call} (h : forall source outcome t, ¬ c.Runs source outcome t) :
    c.reports = [] := by
  unfold reports
  by_cases hheld : c.session.Held c.path
  · exact reportsWithin_of_held hheld _ _
  · rw [reportsWithin_of_new hheld]
    cases hsource : c.session.countRequest.sourceOf? c.path c.origin with
    | none => rfl
    | some found =>
        cases hload : Loading.load c.session.setup.tree c.session.setup.options.includeTests
            found.2 c.path with
        | error e => exact loadReports_of_unreadable hload
        | ok source =>
            exact absurd ⟨_, ⟨hheld, found.1, found.2, hsource, hload, rfl⟩, rfl⟩
              (h source _ _)

theorem reports_of_checks {c : Call} {source : LoadedPackage} {s t : Session}
    {outcome : CheckOutcome} (hc : Tidy c.session) (hchecks : c.Checks source s)
    (hcheck : (c.session.setup.checker source).run importerFrom s = (outcome, t)) :
    c.reports = c.reportsInside source s ++ [⟨c.path, outcome.errors⟩] := by
  rcases hchecks with ⟨hnew, kind, dir, hsource, hload, rfl⟩
  have hsource' : c.session.countRequest.sourceOf? c.path c.origin = some (kind, dir) := hsource
  have htidy : Tidy (c.session.opened c.path kind) := tidy_opened hc hnew hsource
  have hroom : c.session.Room (c.session.setup.tree.importBound + 1) := by
    unfold Room
    omega
  have hreports : loadReports importerFrom (fun q t => reports ⟨q.path, some q.dir, t⟩) c.path
      dir (c.session.opened c.path kind) = _ := loadReports_of_checked hload hcheck
  refine Eq.trans ?_ hreports
  unfold reports
  rw [reportsWithin_of_new hnew, hsource']
  refine loadReports_congr (P := Grows (c.session.opened c.path kind)) ?_ ?_ ?_ ?_
  · intro q t ht
    exact ht.trans (growing_importerWithin _ q t)
  · intro q t ht
    exact importerWithin_eq (htidy.of_grows ht) (hroom.inside ht) q
  · intro q t ht
    refine reportsWithin_eq (htidy.of_grows ht) (hroom.inside ht) ?_
    show t.setup.tree.importBound < t.setup.tree.importBound + 1 + t.pending.length
    omega
  · exact (grows_countLoad _).trans (grows_countCheck _)

/-!
# Verdicts
-/

def Passes (c : Call) (outcome : CheckOutcome) : Prop :=
  c.session.setup.options.allowHardErrors = true ∨
    forall e, e ∈ outcome.errors -> e.isSoft = true

theorem verdict_of_passes {c : Call} {outcome : CheckOutcome} (h : c.Passes outcome) :
    verdict c.session.setup.options c.path outcome = .ok () := by
  unfold verdict
  split
  · next e he =>
      rcases h with hallowed | hsoft
      · rw [if_pos hallowed]
      · have hhard := List.find?_some he
        rw [hsoft e (List.mem_of_find?_eq_some he)] at hhard
        cases hhard
  · rfl

theorem verdict_of_not_passes {c : Call} {outcome : CheckOutcome} (h : ¬ c.Passes outcome) :
    exists before e rest, outcome.errors = before ++ e :: rest ∧
      (forall x, x ∈ before -> x.isSoft = true) ∧ e.isSoft = false ∧
      verdict c.session.setup.options c.path outcome = .error (.typeCheck c.path e.text) := by
  unfold Passes at h
  rw [not_or] at h
  cases hfirst : outcome.firstHard? with
  | none =>
      refine absurd ?_ h.2
      intro e he
      simpa using List.find?_eq_none.mp hfirst e he
  | some e =>
      rcases List.find?_eq_some_iff_append.mp hfirst with ⟨hhard, before, rest, herrors, hbefore⟩
      refine ⟨before, e, rest, herrors, ?_, by simpa using hhard, ?_⟩
      · intro x hx
        simpa using hbefore x hx
      · unfold verdict
        rw [hfirst]
        exact if_neg h.1

/-- What the policy makes of the outcome of a check that ends in the session `t`. -/
structure Ruled (c : Call) (outcome : CheckOutcome) (t : Session) : Prop where
  resolved : forall index, t.index.merge c.path outcome.package.types = .ok index ->
    ((exists p, c.finish.cache.get? c.path = some (.resolved p)) ↔ c.Passes outcome)
  kept : forall index, t.index.merge c.path outcome.package.types = .ok index ->
    c.Passes outcome -> exists p, c.result = .ok (some p) ∧
      c.finish.cache.get? c.path = some (.resolved p)
  rejected : ¬ c.Passes outcome -> exists before e rest,
    outcome.errors = before ++ e :: rest ∧ (forall x, x ∈ before -> x.isSoft = true) ∧
      e.isSoft = false ∧ c.result = .error (.typeCheck c.path e.text) ∧
      (exists cause, c.finish.cache.get? c.path = some (.failed cause)) ∧
      c.finish.index = t.index ∧ c.finish.index.package c.path = []

section Ruling

variable {c : Call} {source : LoadedPackage} {outcome : CheckOutcome} {t : Session}

theorem kept_of_passes (hc : Tidy c.session) (h : c.Runs source outcome t) {index : Index}
    (hmerge : t.index.merge c.path outcome.package.types = .ok index)
    (hpasses : c.Passes outcome) :
    exists p, c.result = .ok (some p) ∧ c.finish.cache.get? c.path = some (.resolved p) := by
  have hverdict := verdict_of_passes hpasses
  have hjudges := judges_of_runs hc h
  generalize c.result = r, c.finish = u at hjudges ⊢
  cases hjudges with
  | rejected hverdict' => cases hverdict'.symm.trans hverdict
  | refused _ hmerge' => cases hmerge'.symm.trans hmerge
  | kept _ _ _ => exact ⟨_, rfl, Table.get?_insert_self _ _ _⟩

theorem rejected_of_verdict (hc : Tidy c.session) (h : c.Runs source outcome t) {e : Error}
    (hverdict : verdict c.session.setup.options c.path outcome = .error e) :
    c.result = .error e ∧ c.finish.cache.get? c.path = some (.failed e.message) ∧
      c.finish.index = t.index := by
  have hjudges := judges_of_runs hc h
  generalize c.result = r, c.finish = u at hjudges ⊢
  cases hjudges with
  | rejected hverdict' =>
      cases hverdict'.symm.trans hverdict
      exact ⟨rfl, Table.get?_insert_self _ _ _, rfl⟩
  | refused hverdict' _ => cases hverdict'.symm.trans hverdict
  | kept _ hverdict' _ => cases hverdict'.symm.trans hverdict

theorem ruled_of_runs (hc : Tidy c.session) (hconsistent : c.finish.Consistent)
    (h : c.Runs source outcome t) : c.Ruled outcome t where
  resolved index hmerge := by
    constructor
    · rintro ⟨p, hp⟩
      by_contra hpasses
      rcases verdict_of_not_passes hpasses with ⟨_, e, _, _, _, _, hverdict⟩
      cases hp.symm.trans (rejected_of_verdict hc h hverdict).2.1
    · intro hpasses
      rcases kept_of_passes hc h hmerge hpasses with ⟨p, _, hp⟩
      exact ⟨p, hp⟩
  kept index hmerge hpasses := kept_of_passes hc h hmerge hpasses
  rejected hpasses := by
    rcases verdict_of_not_passes hpasses with ⟨before, e, rest, herrors, hsoft, hhard, hverdict⟩
    rcases rejected_of_verdict hc h hverdict with ⟨hresult, hentry, hindex⟩
    refine ⟨before, e, rest, herrors, hsoft, hhard, hresult, ⟨_, hentry⟩, hindex, ?_⟩
    apply List.eq_nil_iff_forall_not_mem.mpr
    intro d hd
    rcases hconsistent.mem_package_iff.mp hd with ⟨p, hp, _⟩
    cases hp.symm.trans hentry

end Ruling

theorem consistent_of_checks {c : Call} {source : LoadedPackage} {s : Session}
    (hc : c.session.Consistent) (h : c.Checks source s) : s.Consistent := by
  rcases h with ⟨hnew, kind, dir, _, _, rfl⟩
  exact (hc.recordKind (not_held_iff.mp hnew).1 kind).congr rfl rfl rfl

theorem Arises.consistent {setup : Setup} {c : Call} (h : c.Arises setup) :
    c.session.Consistent := by
  induction h with
  | top ops path origin => exact consistent_after setup ops
  | nested _ hmakes ih =>
      rcases hmakes with ⟨source, s, dir, hchecks, _, hasks⟩
      exact hasks.rel (R := Keeps Consistent) (fun _ h => h)
        (fun _ _ _ hst htu h => htu (hst h))
        (fun q t ht => consistent_afterRequest t q.path (some q.dir) ht)
        (consistent_of_checks ih hchecks)

end Call

/-!
# Whole sessions
-/

theorem reportsFrom_append (ops more : List Operation) (s : Session) :
    reportsFrom (ops ++ more) s =
      reportsFrom ops s ++ reportsFrom more (ops.foldl (fun s op => op.perform s) s) := by
  induction ops generalizing s with
  | nil => rfl
  | cons op rest ih =>
      show reportsOf op s ++ reportsFrom (rest ++ more) (op.perform s) = _
      rw [ih, ← List.append_assoc]
      rfl

theorem reports_snoc (setup : Setup) (ops : List Operation) (op : Operation) :
    reports setup (ops ++ [op]) = reports setup ops ++ reportsOf op (after setup ops) := by
  unfold reports
  rw [reportsFrom_append]
  show _ ++ (reportsOf op (after setup ops) ++ []) = _
  rw [List.append_nil]

/-- How the errors of checks are delivered, and what they do to packages. -/
structure Reported (setup : Setup) : Prop where
  /-- Exactly the errors of the reports are captured, in order. -/
  captured : forall ops, (after setup ops).captured =
    (reports setup ops).flatMap fun r => r.errors
  request : forall ops op path origin, op.request? (after setup ops) = some (path, origin) ->
    reports setup (ops ++ [op]) =
      reports setup ops ++ Call.reports ⟨path, origin, after setup ops⟩
  other : forall ops op, op.request? (after setup ops) = none ->
    reports setup (ops ++ [op]) = reports setup ops
  /-- A check reports all its errors, after the checks inside it. -/
  checked : forall c : Call, c.Arises setup -> forall source s outcome t, c.Checks source s ->
    (setup.checker source).run importerFrom s = (outcome, t) ->
    c.reports = c.reportsInside source s ++ [⟨c.path, outcome.errors⟩]
  unchecked : forall c : Call, c.Arises setup ->
    (forall source outcome t, ¬ c.Runs source outcome t) -> c.reports = []
  ruled : forall c : Call, c.Arises setup -> forall source outcome t,
    c.Runs source outcome t -> c.Ruled outcome t

theorem reported (setup : Setup) : Reported setup where
  captured ops := captured_after setup ops
  request ops op path origin hrequest := by
    rw [reports_snoc]
    unfold reportsOf
    rw [hrequest]
    rfl
  other ops op hrequest := by
    rw [reports_snoc]
    unfold reportsOf
    rw [hrequest]
    exact List.append_nil _
  checked c hc source s outcome t hchecks hcheck := by
    rw [← hc.setup_eq] at hcheck
    exact Call.reports_of_checks hc.tidy hchecks hcheck
  unchecked c _ h := Call.reports_of_unchecked h
  ruled c hc source outcome t hruns :=
    Call.ruled_of_runs hc.tidy (consistent_afterRequest _ _ _ hc.consistent) hruns

end Session
end GoAtlas
