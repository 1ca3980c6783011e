import GoAtlas.Proofs.Check.Wording
import GoAtlas.Proofs.Session.ClosedWorld
import GoAtlas.Proofs.Session.Telling
import Mathlib.Data.List.Chain
import Mathlib.Logic.Relation

/-!
# Independence of the order of requests

If it does not matter where a path is imported from, and no package needs itself, then what a
session finds for a path is settled by the sources alone: by the path's own sources and by what
is settled for the paths that its check asks for.  Two sessions that were asked for different
things in a different order agree on every path that both remember, messages apart.
-/

namespace GoAtlas

/-- What becomes of an import path, reasons apart. -/
inductive Fate where
  | resolved (package : Package)
  | absent
  | failed

namespace Fate

def package? : Fate -> Option Package
  | resolved p => some p
  | absent => none
  | failed => none

def ofCheck (options : Options) (path : String) (kind : PackageKind) (source : LoadedPackage)
    (outcome : CheckOutcome) : Fate :=
  match Session.verdict options path outcome with
  | .ok _ => resolved (Package.ofChecked path kind (some source) outcome.package)
  | .error _ => failed

end Fate

def CacheEntry.fate : CacheEntry -> Fate
  | resolved p => .resolved p
  | absent => .absent
  | failed _ => .failed

/-!
# Where paths stand
-/

/-- What is known of an import path before anything is checked. -/
inductive Standing where
  | misnamed
  | absent
  | system (dir : Option Path)
  | unreadable
  | loaded (kind : PackageKind) (source : LoadedPackage)

def Standing.ofLoad (kind : PackageKind) : Except Error LoadedPackage -> Standing
  | .ok source => loaded kind source
  | .error _ => unreadable

namespace Setup

def standing (setup : Setup) (path : String) : Standing :=
  match Provenance.resolve setup.tree setup.roots path none with
  | .error _ => .misnamed
  | .ok found =>
      match Session.effectiveKind setup.registry path found.kind with
      | .absent => .absent
      | .system => .system found.dir
      | kind =>
          match found.dir with
          | none => .unreadable
          | some dir =>
              .ofLoad kind (Loading.load setup.tree setup.options.includeTests dir path)

def importsOf (setup : Setup) (path : String) : List String :=
  match setup.standing path with
  | .loaded _ source => source.writtenImports.filter fun q => q != "unsafe"
  | _ => []

/-- It does not matter where a path is imported from. -/
def OriginFree (setup : Setup) : Prop :=
  forall path origin, Provenance.resolve setup.tree setup.roots path origin =
    Provenance.resolve setup.tree setup.roots path none

/-- No package can be reached from itself. -/
def Acyclic (setup : Setup) : Prop :=
  forall path, ¬ Relation.TransGen (fun p q => q ∈ setup.importsOf p) path path

def fate? (setup : Setup) (path : String) : Option Fate :=
  match setup.standing path with
  | .misnamed => some .failed
  | .absent => some .absent
  | .system dir => some (.resolved (Session.systemPackage setup.registry path dir))
  | .unreadable => some .failed
  | .loaded _ _ => none

end Setup

/-- The fate of a path as its sources and those of its imports settle it. -/
inductive Setup.Settles (setup : Setup) : String -> Fate -> Prop where
  | plain {path : String} {fate : Fate} (h : setup.fate? path = some fate) :
      Settles setup path fate
  | checked {path : String} {kind : PackageKind} {source : LoadedPackage}
      (h : setup.standing path = .loaded kind source) (answers : Answers)
      (fates : String -> Fate)
      (hfates : forall q, q ∈ (checkGo source).asked answers -> Settles setup q (fates q))
      (hanswers : forall q, q ∈ (checkGo source).asked answers ->
        (answers q).toOption = (fates q).package?) :
      Settles setup path
        (Fate.ofCheck setup.options path kind source ((checkGo source).under answers))

/-!
# Fates are unique
-/

theorem isNone_firstHard_iff (o : CheckOutcome) :
    o.firstHard? = none ↔ forall soft, soft ∈ softness o.errors -> soft = true := by
  unfold CheckOutcome.firstHard? softness
  rw [List.find?_eq_none, List.forall_mem_map]
  simp

theorem Fate.ofCheck_congr (options : Options) (path : String) (kind : PackageKind)
    (source : LoadedPackage) {o o' : CheckOutcome} (hpackage : o.package = o'.package)
    (herrors : softness o.errors = softness o'.errors) :
    ofCheck options path kind source o = ofCheck options path kind source o' := by
  have hhard : o.firstHard? = none ↔ o'.firstHard? = none := by
    rw [isNone_firstHard_iff, isNone_firstHard_iff, herrors]
  unfold ofCheck Session.verdict
  rw [hpackage]
  cases h : o.firstHard? with
  | none => rw [hhard.mp h]
  | some e =>
      cases h' : o'.firstHard? with
      | none => cases h.symm.trans (hhard.mpr h')
      | some e' =>
          dsimp only
          cases options.allowHardErrors with
          | true => rfl
          | false => rfl

theorem Setup.Settles.unique {setup : Setup} {path : String} {fate fate' : Fate}
    (h : setup.Settles path fate) (h' : setup.Settles path fate') : fate = fate' := by
  induction h generalizing fate' with
  | plain h =>
      cases h' with
      | plain h' => exact Option.some.inj (h.symm.trans h')
      | checked h' =>
          unfold Setup.fate? at h
          rw [h'] at h
          cases h
  | checked h answers fates hfates hanswers ih =>
      cases h' with
      | plain h' =>
          unfold Setup.fate? at h'
          rw [h] at h'
          cases h'
      | checked h' answers' fates' hfates' hanswers' =>
          cases h.symm.trans h'
          have hsame := checkGo_of_asked answers answers' _ (by
            intro q hq hq'
            rw [hanswers q hq, hanswers' q hq', ih q hq (hfates' q hq')])
          exact Fate.ofCheck_congr _ _ _ _ hsame.1 hsame.2

/-!
# Trees without vendored packages
-/

theorem Setup.originFree_of_unvendored {setup : Setup}
    (hname : Path.IsNamed setup.roots.vendorDir)
    (h : forall run, run ∈ setup.tree.allRuns ->
      ¬ Text.pieceStrings '/' setup.roots.vendorDir <+: run) : setup.OriginFree := by
  intro path origin
  unfold Provenance.resolve Provenance.validate
  by_cases hvalid : Provenance.isValid path = true
  · have hpath := Provenance.isNamed_of_isValid hvalid
    have hnone : forall levels : List Path,
        (levels.map fun level => (PackageKind.vendored,
          (level.join setup.roots.vendorDir).join path)).find?
            (fun c => setup.tree.isDir c.2) = none := by
      intro levels
      rw [List.find?_eq_none]
      intro c hc hdir
      rcases List.mem_map.mp hc with ⟨level, _, rfl⟩
      rw [Path.join_join level hname hpath] at hdir
      have hrun := FileTree.mem_allRuns_of_isDir (Path.isNamed_slash hname hpath) hdir
      refine h _ hrun ?_
      have hsegments := Path.segments_slash setup.roots.vendorDir path
      unfold Path.segments at hsegments
      rw [hsegments]
      exact List.prefix_append _ _
    have hfind : forall origin, (Provenance.candidates setup.roots path origin).find?
        (fun c => setup.tree.isDir c.2) =
        ((setup.roots.system.map fun root => (PackageKind.system, root.join path)).toList ++
          (setup.roots.workspace.map fun root => (PackageKind.user, root.join path)).toList).find?
            fun c => setup.tree.isDir c.2 := by
      intro origin
      unfold Provenance.candidates
      dsimp only
      rw [List.append_assoc, List.find?_append, hnone, Option.none_or]
    rw [hfind origin, hfind none]
  · rw [if_neg hvalid]
    rfl

theorem Setup.mem_allRuns_of_mem_importsOf {setup : Setup} {path q : String}
    (h : q ∈ setup.importsOf path) : Text.pieceStrings '/' path ∈ setup.tree.allRuns := by
  unfold importsOf standing at h
  split at h
  · next kind source hstanding =>
      split at hstanding
      · cases hstanding
      · next found hfound =>
          refine FileTree.mem_allRuns_of_leads (Provenance.leads_of_resolve hfound ?_)
          intro habsent
          unfold Session.effectiveKind at hstanding
          rw [habsent] at hstanding
          by_cases hmodel : (!PackageKind.absent.isFound && setup.registry.contains path) = true
          · rw [if_pos hmodel] at hstanding
            cases hstanding
          · rw [if_neg hmodel] at hstanding
            cases hstanding
  · cases h

/-!
# Sessions whose fates are settled
-/

namespace Session

section Standing

variable {s : Session} {path : String} {origin : Option Path}

theorem standing_of_misnamed (h : Provenance.isValid path = false) :
    s.setup.standing path = .misnamed := by
  unfold Setup.standing
  cases hfound : Provenance.resolve s.setup.tree s.setup.roots path none with
  | error e => rfl
  | ok found => cases h.symm.trans (Provenance.isValid_of_resolve hfound)

theorem standing_of_absent (hfree : s.setup.OriginFree) {found : Resolution}
    (hfound : Provenance.resolve s.setup.tree s.setup.roots path origin = .ok found)
    (hkind : effectiveKind s.setup.registry path found.kind = .absent) :
    s.setup.standing path = .absent := by
  unfold Setup.standing
  rw [← hfree path origin, hfound]
  dsimp only
  rw [hkind]

theorem standing_of_system (hfree : s.setup.OriginFree) {found : Resolution}
    (hfound : Provenance.resolve s.setup.tree s.setup.roots path origin = .ok found)
    (hkind : effectiveKind s.setup.registry path found.kind = .system) :
    s.setup.standing path = .system found.dir := by
  unfold Setup.standing
  rw [← hfree path origin, hfound]
  dsimp only
  rw [hkind]

theorem standing_of_source (hfree : s.setup.OriginFree) {kind : PackageKind} {dir : Path}
    (hsource : s.sourceOf? path origin = some (kind, dir)) :
    s.setup.standing path =
      .ofLoad kind (Loading.load s.setup.tree s.setup.options.includeTests dir path) := by
  unfold sourceOf? at hsource
  split at hsource
  · next found hfound =>
      split at hsource
      · next hkind =>
          rcases Option.map_eq_some_iff.mp hsource with ⟨dir', hdir, heq⟩
          cases heq
          unfold Setup.standing
          rw [← hfree path origin, hfound]
          dsimp only
          rw [hdir]
          cases hk : effectiveKind s.setup.registry path found.kind with
          | absent =>
              rw [hk] at hkind
              cases hkind
          | system =>
              rw [hk] at hkind
              cases hkind
          | user => rfl
          | vendored => rfl
      · cases hsource
  · cases hsource

end Standing

/-- A session with settled fates, in which each pending path is imported by the one before. -/
structure Settled (s : Session) : Prop where
  free : s.setup.OriginFree
  acyclic : s.setup.Acyclic
  unbroken : s.Unbroken
  sound : s.Sound
  chain : s.pending.IsChain fun p q => q ∈ s.setup.importsOf p
  fates : forall path entry, s.cache.get? path = some entry -> s.setup.Settles path entry.fate

/-- A path that may be asked for: an import of the package that is checked, or a package that is
remembered. -/
def Expects (s : Session) (q : String) : Prop :=
  (exists p, s.cache.get? q = some (.resolved p)) ∨
    forall p, p ∈ s.pending.getLast? -> q ∈ s.setup.importsOf p

def Settling (bound : Nat) (importer : Importer) : Prop :=
  forall q s, s.Settled -> s.Room bound -> s.Expects q.path -> (importer q s).2.Settled

/-!
# Checks
-/

section Checking

variable {bound : Nat} {importer : Importer} {path : String} {origin : Option Path}
  {kind : PackageKind} {dir : Path} {source : LoadedPackage} {answers : Answers} {s u : Session}

theorem Settled.checkStart (hs : s.Settled) (hnew : ¬ s.Held path) (hexpects : s.Expects path)
    (hsource : s.sourceOf? path origin = some (kind, dir)) :
    (s.checkStart path kind).Settled where
  free := hs.free
  acyclic := hs.acyclic
  unbroken := hs.unbroken.checkStart hnew hsource
  sound := (checking_of_new hs.sound hnew).sound
  chain := by
    refine hs.chain.append (List.isChain_singleton path) ?_
    intro p hp q hq
    cases hq
    rcases hexpects with ⟨package, hpackage⟩ | himport
    · cases (not_held_iff.mp hnew).1.symm.trans hpackage
    · exact himport p hp
  fates := hs.fates

theorem expects_of_asks (hreliable : Reliable importer)
    (hs : s.Settled) (hnew : ¬ s.Held path)
    (hsource : s.sourceOf? path origin = some (kind, dir))
    (hload : Loading.load s.setup.tree s.setup.options.includeTests dir path = .ok source)
    {q : String} {t : Session} (hasks : Inquiry.Asks (importer.inDir source.dir) q t
      (checkGo source) (s.checkStart path kind)) :
    (exists p, t.cache.get? q = some (.resolved p)) ∨ q ∈ s.setup.importsOf path := by
  have himport := Loading.importPath_of_load hload
  have hchecking : (s.checkStart path kind).Checking source.importPath :=
    himport.symm ▸ checking_of_new hs.sound hnew
  rcases (checkGo_spec (hreliable source.dir) hchecking rfl).2 q t hasks with hfirst | hknown
  · rcases (once_collect source).of_asks hfirst with ⟨answers, hq⟩
    rcases Collection.mem_writtenImports_of_asked hq with ⟨hwritten, hsafe⟩
    refine Or.inr ?_
    unfold Setup.importsOf
    rw [standing_of_source hs.free hsource, hload]
    exact List.mem_filter.mpr ⟨hwritten, bne_iff_ne.mpr hsafe⟩
  · exact Or.inl hknown

/-- A check keeps fates settled. -/
theorem Settled.checked (hgrowing : Growing importer) (hreliable : Reliable importer)
    (hsettling : Settling bound importer) (hs : s.Settled) (hroom : s.Room (bound + 1))
    (hnew : ¬ s.Held path) (hexpects : s.Expects path)
    (hsource : s.sourceOf? path origin = some (kind, dir))
    (h : Checked importer path kind dir s source answers u) : u.Settled := by
  have hrun := h.run
  rw [hs.sound.checker, run_goChecker] at hrun
  have hend := Inquiry.run_keeps (i := checkGo source)
    (P := fun t => t.Settled ∧ Grows (s.checkStart path kind) t) (by
      rintro q t hasks ⟨ht, hgrows⟩
      refine ⟨?_, hgrows.trans (hgrowing.inDir source.dir q t)⟩
      refine hsettling ⟨q, source.dir⟩ t ht (hroom.checkStart.of_grows hgrows) ?_
      refine (expects_of_asks hreliable hs hnew hsource h.load hasks).imp_right ?_
      intro hq p hp
      have hlast : t.pending = s.pending ++ [path] := hgrows.pending
      rw [hlast, List.getLast?_concat] at hp
      cases hp
      rw [hgrows.setup]
      exact hq) ⟨hs.checkStart hnew hexpects hsource, Grows.refl _⟩
  rw [hrun] at hend
  exact hend.1

theorem Settled.not_pending (hgrowing : Growing importer) (hreliable : Reliable importer)
    (hs : s.Settled) (hnew : ¬ s.Held path) (hexpects : s.Expects path)
    (hsource : s.sourceOf? path origin = some (kind, dir))
    (h : Checked importer path kind dir s source answers u) {q : String}
    (hq : q ∈ (checkGo source).asked answers) : q ∉ s.pending ++ [path] := by
  intro hpending
  rcases h.asks q hq with ⟨t, hasks⟩
  rcases expects_of_asks hreliable hs hnew hsource h.load hasks with ⟨p, hp⟩ | himport
  · -- What is remembered stays so, and pending paths are not remembered.
    have hrun := h.run
    rw [hs.sound.checker, run_goChecker] at hrun
    have hafter := hasks.rel_end Grows.refl (fun _ _ _ => Grows.trans)
      (hgrowing.inDir source.dir)
    rw [hrun] at hafter
    have hcached := ((hgrowing.inDir source.dir q t).trans hafter).cached hp
    have hstill : u.pending = s.pending ++ [path] := (grows_check hgrowing h.run).pending
    cases (h.unbroken.tidy.new q (hstill ▸ hpending)).symm.trans hcached
  · have hchain := (hs.checkStart hnew hexpects hsource).chain
    have hreach : Relation.ReflTransGen (fun p q => q ∈ s.setup.importsOf p) q path := by
      refine hchain.backwards_induction
        (fun p => Relation.ReflTransGen (fun p q => q ∈ s.setup.importsOf p) p path) _ ?_ ?_ q
        hpending
      · intro x y hxy hy
        exact Relation.ReflTransGen.head hxy hy
      · intro hne
        have hlast : (s.checkStart path kind).pending.getLast hne = path :=
          List.getLast_concat
        rw [hlast]
    exact hs.acyclic q (Relation.TransGen.tail' hreach himport)

/-- The answers that a check got are those that the fates give. -/
theorem Settled.fates_of_checked (hgrowing : Growing importer) (hreliable : Reliable importer)
    (hs : s.Settled) (hnew : ¬ s.Held path) (hexpects : s.Expects path)
    (hsource : s.sourceOf? path origin = some (kind, dir))
    (h : Checked importer path kind dir s source answers u) (hu : u.Settled) :
    exists fates : String -> Fate, forall q, q ∈ (checkGo source).asked answers ->
      s.setup.Settles q (fates q) ∧ (answers q).toOption = (fates q).package? := by
  have hsetup : u.setup = s.setup := h.setup hgrowing
  have hfate : forall q, exists fate, q ∈ (checkGo source).asked answers ->
      s.setup.Settles q fate ∧ (answers q).toOption = fate.package? := by
    intro q
    by_cases hq : q ∈ (checkGo source).asked answers
    · have hsettles := hu.fates q
      rw [hsetup] at hsettles
      have htold := h.told q hq
      generalize answers q = answer at htold
      cases htold with
      | known hentry => exact ⟨_, fun _ => ⟨hsettles _ hentry, rfl⟩⟩
      | absent hentry => exact ⟨_, fun _ => ⟨hsettles _ hentry, rfl⟩⟩
      | failed hentry => exact ⟨_, fun _ => ⟨hsettles _ hentry, rfl⟩⟩
      | misnamed hinvalid =>
          refine ⟨.failed, fun _ => ⟨Setup.Settles.plain ?_, rfl⟩⟩
          unfold Setup.fate?
          rw [standing_of_misnamed hinvalid]
      | cyclic hpending =>
          exact absurd hpending (hs.not_pending hgrowing hreliable hnew hexpects hsource h hq)
    · exact ⟨.absent, fun hq' => absurd hq' hq⟩
  choose fates hfates using hfate
  exact ⟨fates, hfates⟩

end Checking

/-!
# Requests
-/

theorem fates_of_finds {bound : Nat} {importer : Importer} (hgrowing : Growing importer)
    (hreliable : Reliable importer) (hsettling : Settling bound importer) {path : String}
    {origin : Option Path} {s t : Session} {r : Except Error (Option Package)} (hs : s.Settled)
    (hroom : s.Room (bound + 1)) (hnew : ¬ s.Held path) (hexpects : s.Expects path)
    (h : Finds importer path origin s r t) {other : String} {entry : CacheEntry}
    (hentry : t.cache.get? other = some entry) : s.setup.Settles other entry.fate := by
  -- A request that needs no check, and one that does.
  have hplain : forall e, (s.remember path e).cache.get? other = some entry ->
      s.setup.fate? path = some e.fate -> s.setup.Settles other entry.fate := by
    intro e he hfate
    rcases cached_of_remember he with ⟨rfl, rfl⟩ | hold
    · exact Setup.Settles.plain hfate
    · exact hs.fates other entry hold
  have hchecked : forall {kind dir source answers u} (e : CacheEntry),
      s.sourceOf? path origin = some (kind, dir) ->
      Checked importer path kind dir s source answers u ->
      (u.remember path e).cache.get? other = some entry ->
      e.fate = Fate.ofCheck s.setup.options path kind source ((checkGo source).under answers) ->
      s.setup.Settles other entry.fate := by
    intro kind dir source answers u e hsource hc he hfate
    have hu := hs.checked hgrowing hreliable hsettling hroom hnew hexpects hsource hc
    rcases cached_of_remember he with ⟨rfl, rfl⟩ | hold
    · rcases hs.fates_of_checked hgrowing hreliable hnew hexpects hsource hc hu with
        ⟨fates, hfates⟩
      have hstanding := standing_of_source hs.free hsource
      rw [hc.load] at hstanding
      rw [hfate]
      exact Setup.Settles.checked hstanding answers fates (fun q hq => (hfates q hq).1)
        fun q hq => (hfates q hq).2
    · have hold' := hu.fates other entry hold
      rw [hc.setup hgrowing] at hold'
      exact hold'
  cases h with
  | misnamed hinvalid => exact hs.fates other entry hentry
  | absent hfound hkind =>
      refine hplain .absent hentry ?_
      unfold Setup.fate?
      rw [standing_of_absent hs.free hfound hkind]
      rfl
  | @system found hfound hkind =>
      refine hplain (.resolved (systemPackage s.setup.registry path found.dir)) hentry ?_
      unfold Setup.fate?
      rw [standing_of_system hs.free hfound hkind]
      rfl
  | unreadable hsource hload =>
      refine hplain (.failed _) hentry ?_
      unfold Setup.fate?
      rw [standing_of_source hs.free hsource, hload]
      rfl
  | rejected hsource hc hverdict =>
      refine hchecked (.failed _) hsource hc hentry ?_
      unfold Fate.ofCheck
      rw [hverdict]
      rfl
  | resolved hsource hc hverdict hmerge =>
      refine hchecked (.resolved _) hsource hc hentry ?_
      unfold Fate.ofCheck
      rw [hverdict]
      rfl

theorem settled_of_requests {bound : Nat}
    (himporter : forall n, n < bound -> Settling n (importerWithin n)) {path : String}
    {origin : Option Path} {s t : Session} {r : Except Error (Option Package)}
    (hs : s.Settled) (hroom : s.Room bound) (hexpects : s.Expects path)
    (h : Requests path origin s bound r t) : t.Settled := by
  have hgrows := grows_of_requests (fun n _ => growing_importerWithin n) h
  have hfates : forall other entry, t.cache.get? other = some entry ->
      s.setup.Settles other entry.fate := by
    intro other entry hentry
    cases h with
    | cached => exact hs.fates other entry hentry
    | cyclic => exact hs.fates other entry hentry
    | exhausted => exact hs.fates other entry hentry
    | @opened bound _ _ hnew hopens =>
        have hcounted : s.countRequest.Settled :=
          { hs with
            unbroken := hs.unbroken.countRequest
            sound := hs.sound.congr rfl rfl }
        have hfinds := finds_of_opens (growing_importerWithin bound)
          (telling_importerWithin bound) hcounted.unbroken hroom hnew hopens
        exact fates_of_finds (growing_importerWithin bound) (reliable_importerWithin bound)
          (himporter bound (Nat.lt_succ_self bound)) hcounted hroom hnew hexpects hfinds hentry
  exact
    { free := hgrows.setup.symm ▸ hs.free
      acyclic := hgrows.setup.symm ▸ hs.acyclic
      unbroken := (unbroken_of_requests (fun n _ => telling_importerWithin n) hs.unbroken hroom
        h).1
      sound := sound_of_requests (fun n _ => reliable_importerWithin n) hs.sound h
      chain := by
        rw [hgrows.setup, hgrows.pending]
        exact hs.chain
      fates := hgrows.setup.symm ▸ hfates }

theorem settling_importerWithin (bound : Nat) : Settling bound (importerWithin bound) := by
  induction bound using Nat.strongRecOn with
  | ind bound ih =>
      intro q s hs hroom hexpects
      exact settled_of_requests ih hs hroom hexpects (requests_of_run rfl)

theorem settled_after {setup : Setup} (hchecker : setup.checker = goChecker)
    (hregistry : setup.registry = Registry.standard) (hfree : setup.OriginFree)
    (hacyclic : setup.Acyclic) (ops : List Operation) : (after setup ops).Settled := by
  have hstep : (after setup ops).Settled ∧ (after setup ops).pending = [] := by
    refine after_induction (P := fun s => s.Settled ∧ s.pending = []) ?_ ?_ ops
    · refine ⟨?_, rfl⟩
      exact
        { free := hfree
          acyclic := hacyclic
          unbroken := unbroken_start hchecker
          sound := sound_start hchecker hregistry
          chain := List.IsChain.nil
          fates := fun _ _ hentry => by cases hentry }
    · rintro s path origin ⟨hs, hidle⟩
      refine ⟨?_, (grows_afterRequest s path origin).pending.trans hidle⟩
      have hroom : s.Room (s.setup.tree.importBound + 1) := by
        unfold Room
        omega
      have hexpects : s.Expects path := by
        refine Or.inr ?_
        rw [hidle]
        intro p hp
        cases hp
      unfold afterRequest
      rw [run_resolveFrom]
      exact settled_of_requests (fun n _ => settling_importerWithin n) hs hroom hexpects
        (requests_of_run rfl)
  exact hstep.1

/-- What is found for a path does not depend on what was asked for before. -/
theorem fate_after (tree : FileTree) (roots : SearchRoots) (options : Options)
    (hfree : (goSetup tree roots options).OriginFree)
    (hacyclic : (goSetup tree roots options).Acyclic) (ops ops' : List Operation)
    {path : String} {entry entry' : CacheEntry}
    (hentry : (after (goSetup tree roots options) ops).cache.get? path = some entry)
    (hentry' : (after (goSetup tree roots options) ops').cache.get? path = some entry') :
    entry.fate = entry'.fate := by
  have hfate := (settled_after rfl rfl hfree hacyclic ops).fates path entry hentry
  have hfate' := (settled_after rfl rfl hfree hacyclic ops').fates path entry' hentry'
  rw [setup_after] at hfate hfate'
  exact hfate.unique hfate'

theorem importsOf_pair {path q : String}
    (h : q ∈ (goSetup pairTree pairRoots ⟨false, false⟩).importsOf path) :
    path = "a" ∧ q = "b" := by
  have hruns : forall run, run ∈ pairTree.allRuns -> exists path,
      path ∈ ["w", "w/a", "w/a/a.go", "a", "a/a.go", "a.go", "w/b", "w/b/b.go", "b", "b/b.go",
        "b.go"] ∧ Text.pieceStrings '/' path = run := by
    decide +kernel
  have himports : forall path, path ∈ ["w", "w/a", "w/a/a.go", "a", "a/a.go", "a.go", "w/b",
      "w/b/b.go", "b", "b/b.go", "b.go"] ->
      forall q, q ∈ (goSetup pairTree pairRoots ⟨false, false⟩).importsOf path ->
        path = "a" ∧ q = "b" := by
    decide +kernel
  rcases hruns _ (Setup.mem_allRuns_of_mem_importsOf h) with ⟨other, hother, hpieces⟩
  cases Text.pieceStrings_injective '/' hpieces
  exact himports path hother q h

theorem acyclic_pair : (goSetup pairTree pairRoots ⟨false, false⟩).Acyclic := by
  intro path hcycle
  rcases Relation.TransGen.head'_iff.mp hcycle with ⟨_, hfirst, _⟩
  rcases Relation.TransGen.tail'_iff.mp hcycle with ⟨_, _, hlast⟩
  have hne : ("a" : String) ≠ "b" := by decide
  exact hne ((importsOf_pair hfirst).1.symm.trans (importsOf_pair hlast).2)

/-- Of two packages, one of which imports the other, the first is found the same whether it is
asked for alone or after the second. -/
theorem fate_after_pair : exists p p',
    (after (goSetup pairTree pairRoots ⟨false, false⟩) [.resolve "a"]).cache.get? "a" =
      some (.resolved p) ∧
    (after (goSetup pairTree pairRoots ⟨false, false⟩)
      [.resolve "b", .importFrom "a" ⟨"/w/b"⟩]).cache.get? "a" = some (.resolved p') ∧ p = p' := by
  have halone : ((after (goSetup pairTree pairRoots ⟨false, false⟩)
      [.resolve "a"]).package? "a").isSome = true := by
    decide +kernel
  have hlater : ((after (goSetup pairTree pairRoots ⟨false, false⟩)
      [.resolve "b", .importFrom "a" ⟨"/w/b"⟩]).package? "a").isSome = true := by
    decide +kernel
  have hfree : (goSetup pairTree pairRoots ⟨false, false⟩).OriginFree :=
    Setup.originFree_of_unvendored (by unfold Path.IsNamed; decide +kernel) (by decide +kernel)
  rcases Option.isSome_iff_exists.mp halone with ⟨p, hp⟩
  rcases Option.isSome_iff_exists.mp hlater with ⟨p', hp'⟩
  have hentry := package?_eq_some_iff.mp hp
  have hentry' := package?_eq_some_iff.mp hp'
  have hfate := fate_after pairTree pairRoots ⟨false, false⟩ hfree acyclic_pair _ _ hentry hentry'
  exact ⟨p, p', hentry, hentry', Fate.resolved.inj hfate⟩

end Session
end GoAtlas
