import GoAtlas.Proofs.Check.Undotted
import GoAtlas.Proofs.Session.Breaks

/-!
# Laws of packages

A law that holds of the models of system packages, and that checks hand on from the packages
they are told about to the package they find, holds of every package that a session resolves.
By such a law no declared name in any type has a dot.
-/

namespace GoAtlas
namespace Session

structure PackageLaw (registry : Registry) (law : Package -> Prop) : Prop where
  system : forall path dir, law (systemPackage registry path dir)
  checked : forall tree tests dir path kind source answers,
    Loading.load tree tests dir path = .ok source ->
    (forall q p, q ∈ (checkGo source).asked answers -> answers q = .ok p -> law p) ->
    forall index : Index, path ≠ "" ->
      index.Accepts path ((checkGo source).under answers).package.types ->
      law (Package.ofChecked path kind (some source) ((checkGo source).under answers).package)

/-- A law that checks hand on holds of every resolved package. -/
structure Obeys (law : Package -> Prop) (s : Session) : Prop where
  registry : PackageLaw s.setup.registry law
  packages : forall path p, s.cache.get? path = some (.resolved p) -> law p

theorem Obeys.remember {law : Package -> Prop} {s : Session} {path : String} {entry : CacheEntry}
    (h : s.Obeys law) (hentry : forall p, entry = .resolved p -> law p) :
    (s.remember path entry).Obeys law where
  registry := h.registry
  packages other p hp := by
    rcases cached_of_remember hp with ⟨_, heq⟩ | hold
    · exact hentry p heq
    · exact h.packages other p hold

section Requests

variable {law : Package -> Prop} {bound : Nat} {importer : Importer} {path : String}
  {origin : Option Path} {s t : Session} {r : Except Error (Option Package)}

def Obeying (law : Package -> Prop) (bound : Nat) (importer : Importer) : Prop :=
  forall q s, s.Unbroken -> s.Room bound -> s.Obeys law -> (importer q s).2.Obeys law

theorem obeys_of_checked (hgrowing : Growing importer) (htelling : Telling bound importer)
    (himporter : Obeying law bound importer) {kind : PackageKind} {dir : Path}
    {source : LoadedPackage} {answers : Answers} (hs : s.Unbroken) (hroom : s.Room (bound + 1))
    (hnew : ¬ s.Held path) (hsource : s.sourceOf? path origin = some (kind, dir))
    (hlaw : s.Obeys law) (h : Checked importer path kind dir s source answers t) :
    t.Obeys law := by
  have hstep : forall q u, Keeps (fun u => u.Unbroken ∧ u.Room bound ∧ u.Obeys law) u
      (importer q u).2 := by
    rintro q u ⟨hu, hroom, hlaw⟩
    exact ⟨(htelling q u hu hroom).1, hroom.of_grows (hgrowing q u),
      himporter q u hu hroom hlaw⟩
  have hend := Inquiry.run_rel (fun _ h => h) (fun _ _ _ hst htu h => htu (hst h)) hstep
    (s.setup.checker source) (s.checkStart path kind)
    ⟨hs.checkStart hnew hsource, hroom.checkStart, hlaw.registry, hlaw.packages⟩
  rw [h.run] at hend
  exact hend.2.2

theorem obeys_of_finds (hgrowing : Growing importer) (htelling : Telling bound importer)
    (himporter : Obeying law bound importer) (hs : s.Unbroken) (hroom : s.Room (bound + 1))
    (hnew : ¬ s.Held path) (hlaw : s.Obeys law) (h : Finds importer path origin s r t) :
    t.Obeys law := by
  have hother : forall (u : Session) (entry : CacheEntry), u.Obeys law ->
      (forall p, entry ≠ .resolved p) -> (u.remember path entry).Obeys law :=
    fun _ _ hu hentry => hu.remember fun p hp => absurd hp (hentry p)
  cases h with
  | misnamed hinvalid => exact hlaw
  | absent hfound hkind =>
      exact hother _ _ ⟨hlaw.registry, hlaw.packages⟩ fun p hp => by cases hp
  | @system found hfound hkind =>
      refine Obeys.remember ⟨hlaw.registry, hlaw.packages⟩ ?_
      rintro p ⟨⟩
      exact hlaw.registry.system path found.dir
  | unreadable hsource hload =>
      exact hother _ _ ⟨hlaw.registry, hlaw.packages⟩ fun p hp => by cases hp
  | rejected hsource hchecked hverdict =>
      have hend := obeys_of_checked hgrowing htelling himporter hs hroom hnew hsource hlaw hchecked
      exact hother _ _ ⟨hend.registry, hend.packages⟩ fun p hp => by cases hp
  | @resolved kind dir source answers u index hsource hchecked hverdict hmerge =>
      have hend := obeys_of_checked hgrowing htelling himporter hs hroom hnew hsource hlaw hchecked
      refine Obeys.remember ⟨hend.registry, hend.packages⟩ ?_
      rintro p ⟨⟩
      refine hlaw.registry.checked _ _ _ path kind source answers hchecked.load ?_ u.index
        (Provenance.ne_empty_of_isValid (isSource_of_sourceOf? hsource).2)
        (Index.merge_eq_ok_iff.mp hmerge).1
      -- What the check was told is remembered when it ends.
      intro q p hq hp
      have htold := hchecked.told q hq
      rw [hp] at htold
      cases htold with
      | known hentry => exact hend.packages q p hentry

theorem obeys_of_requests (himporter : forall n, n < bound -> Obeying law n (importerWithin n))
    (hs : s.Unbroken) (hroom : s.Room bound) (hlaw : s.Obeys law)
    (h : Requests path origin s bound r t) : t.Obeys law := by
  cases h with
  | cached hentry => exact ⟨hlaw.registry, hlaw.packages⟩
  | cyclic hnew hpending => exact ⟨hlaw.registry, hlaw.packages⟩
  | exhausted hnew => exact absurd hroom hs.tidy.not_room_zero
  | @opened bound _ _ hnew hopens =>
      have hcounted : s.countRequest.Unbroken := hs.countRequest
      have hfinds := finds_of_opens (growing_importerWithin bound) (telling_importerWithin bound)
        hcounted hroom hnew hopens
      exact obeys_of_finds (growing_importerWithin bound) (telling_importerWithin bound)
        (himporter bound (Nat.lt_succ_self bound)) hcounted hroom hnew
        ⟨hlaw.registry, hlaw.packages⟩ hfinds

theorem obeying_importerWithin (law : Package -> Prop) (bound : Nat) :
    Obeying law bound (importerWithin bound) := by
  induction bound using Nat.strongRecOn with
  | ind bound ih =>
      intro q s hs hroom hlaw
      exact obeys_of_requests ih hs hroom hlaw (requests_of_run rfl)

end Requests

/-- A law that checks hand on holds of all packages of a session. -/
theorem obeys_after {setup : Setup} (hchecker : setup.checker = goChecker)
    {law : Package -> Prop} (hlaw : PackageLaw setup.registry law) (ops : List Operation) :
    (after setup ops).Obeys law := by
  refine (after_induction (P := fun s => s.Unbroken ∧ s.Obeys law) ?_ ?_ ops).2
  · exact ⟨unbroken_start hchecker, hlaw, fun _ _ hp => by cases hp⟩
  · rintro s path origin ⟨hs, hobeys⟩
    refine ⟨(hs.afterRequest path origin).1, ?_⟩
    unfold Session.afterRequest
    rw [run_resolveFrom]
    exact obeys_of_requests (fun n _ => obeying_importerWithin law n) hs s.room_start hobeys
      (requests_of_run rfl)

/-!
# Names in types
-/

theorem undotted_of_isClosed {path : String} {model : CheckedPackage}
    (h : model.isClosed path = true) {d : TypeDef} (hd : d ∈ model.types) : d.Undotted := by
  have hplain := (CheckedPackage.isClosed_iff.mp h).2.2.1
  obtain ⟨hname, hdot, _, _, hown⟩ := CheckedPackage.isPlain_iff.mp (hplain d hd)
  constructor
  · rw [hname]
    exact GoType.within_declared_iff.mpr hdot
  · intro leaf hleaf
    have hself := hown leaf (List.mem_append_left _ hleaf)
    unfold GoType.Allowed
    split
    · trivial
    · next package name =>
        simp only [CheckedPackage.isOwn, Bool.and_eq_true, List.contains_eq_mem,
          decide_eq_true_eq] at hself
        obtain ⟨other, hother, rfl⟩ := List.mem_map.mp hself.2
        exact (CheckedPackage.isPlain_iff.mp (hplain other hother)).2.1
    · trivial

theorem undotted_systemPackage (path : String) (dir : Option Path) :
    (systemPackage Registry.standard path dir).Undotted := by
  intro name d hd
  unfold systemPackage at hd
  cases hmodel : Registry.standard.get? path with
  | none =>
      rw [hmodel] at hd
      cases hd
  | some model =>
      rw [hmodel] at hd
      have hclosed := Registry.isClosed_of_standard hmodel
      exact undotted_of_isClosed hclosed ((type?_of_model hclosed rfl).mp hd).1

theorem packageLaw_undotted : PackageLaw Registry.standard Package.Undotted where
  system := undotted_systemPackage
  checked tree tests dir path kind source answers hload hasked index hpath haccepts := by
    intro name d hd
    exact undotted_of_asked hload hasked
      ((Package.get?_typeTable_iff hpath haccepts).mp hd).1

theorem undotted_after (tree : FileTree) (roots : SearchRoots) (options : Options)
    (ops : List Operation) {path : String} {p : Package}
    (hp : (after (goSetup tree roots options) ops).cache.get? path = some (.resolved p)) :
    p.Undotted :=
  (obeys_after rfl packageLaw_undotted ops).packages path p hp

end Session
end GoAtlas
