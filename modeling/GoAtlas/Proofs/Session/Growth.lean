import GoAtlas.Proofs.Index
import GoAtlas.Proofs.Inquiry
import GoAtlas.Proofs.Session.Cases

/-!
# Sessions only grow

Whatever a request does, and whatever the checks inside it ask for, a session keeps its setup
and its pending paths, and what it knows of the held paths stays as it is.
-/

namespace GoAtlas
namespace Session

/-- What no step of a session takes back. -/
structure Grows (s t : Session) : Prop where
  setup : t.setup = s.setup
  pending : t.pending = s.pending
  cache : forall path, s.Held path -> t.cache.get? path = s.cache.get? path
  kinds : forall path, s.Held path -> t.kinds.get? path = s.kinds.get? path
  package : forall path, s.Held path -> t.index.package path = s.index.package path
  index : forall name d, s.index.get? name = some d -> t.index.get? name = some d

namespace Grows

theorem refl (s : Session) : Grows s s :=
  ⟨rfl, rfl, fun _ _ => rfl, fun _ _ => rfl, fun _ _ => rfl, fun _ _ h => h⟩

theorem held {s t : Session} (h : Grows s t) {path : String} (hheld : s.Held path) :
    t.Held path := by
  rcases hheld with ⟨entry, hentry⟩ | hpending
  · exact Or.inl ⟨entry, (h.cache path (Or.inl ⟨entry, hentry⟩)).trans hentry⟩
  · exact Or.inr (h.pending ▸ hpending)

theorem trans {s t u : Session} (hst : Grows s t) (htu : Grows t u) : Grows s u where
  setup := htu.setup.trans hst.setup
  pending := htu.pending.trans hst.pending
  cache path hheld := (htu.cache path (hst.held hheld)).trans (hst.cache path hheld)
  kinds path hheld := (htu.kinds path (hst.held hheld)).trans (hst.kinds path hheld)
  package path hheld := (htu.package path (hst.held hheld)).trans (hst.package path hheld)
  index name d hd := htu.index name d (hst.index name d hd)

theorem cached {s t : Session} (h : Grows s t) {path : String} {entry : CacheEntry}
    (hentry : s.cache.get? path = some entry) : t.cache.get? path = some entry :=
  (h.cache path (Or.inl ⟨entry, hentry⟩)).trans hentry

end Grows

/-!
# Single updates

Counting and capturing touch nothing that growth speaks of.  The other updates concern one
path, which must not be held.
-/

theorem grows_countRequest (s : Session) : Grows s s.countRequest :=
  ⟨rfl, rfl, fun _ _ => rfl, fun _ _ => rfl, fun _ _ => rfl, fun _ _ h => h⟩

theorem grows_countHit (s : Session) : Grows s s.countHit :=
  ⟨rfl, rfl, fun _ _ => rfl, fun _ _ => rfl, fun _ _ => rfl, fun _ _ h => h⟩

theorem grows_countLoad (s : Session) : Grows s s.countLoad :=
  ⟨rfl, rfl, fun _ _ => rfl, fun _ _ => rfl, fun _ _ => rfl, fun _ _ h => h⟩

theorem grows_countCheck (s : Session) : Grows s s.countCheck :=
  ⟨rfl, rfl, fun _ _ => rfl, fun _ _ => rfl, fun _ _ => rfl, fun _ _ h => h⟩

theorem grows_capture (s : Session) (errors : List TypeError) : Grows s (s.capture errors) :=
  ⟨rfl, rfl, fun _ _ => rfl, fun _ _ => rfl, fun _ _ => rfl, fun _ _ h => h⟩

theorem ne_of_held {s : Session} {path other : String} (hnew : ¬ s.Held path)
    (hheld : s.Held other) : other ≠ path := by
  intro heq
  exact hnew (heq ▸ hheld)

theorem grows_remember {s : Session} {path : String} (hnew : ¬ s.Held path)
    (entry : CacheEntry) : Grows s (s.remember path entry) where
  setup := rfl
  pending := rfl
  cache _ hheld := Table.get?_insert_of_ne s.cache entry (ne_of_held hnew hheld)
  kinds _ _ := rfl
  package _ _ := rfl
  index _ _ h := h

theorem grows_recordKind {s : Session} {path : String} (hnew : ¬ s.Held path)
    (kind : PackageKind) : Grows s (s.recordKind path kind) where
  setup := rfl
  pending := rfl
  cache _ _ := rfl
  kinds _ hheld := Table.get?_insert_of_ne s.kinds kind (ne_of_held hnew hheld)
  package _ _ := rfl
  index _ _ h := h

theorem grows_merge {s : Session} {path : String} {types : List TypeDef} {index : Index}
    (hnew : ¬ s.Held path) (hmerge : s.index.merge path types = .ok index) :
    Grows s { s with index := index } := by
  rcases Index.merge_eq_ok_iff.mp hmerge with ⟨haccepts, rfl⟩
  exact
    { setup := rfl
      pending := rfl
      cache := fun _ _ => rfl
      kinds := fun _ _ => rfl
      package := fun other hheld =>
        Index.package_insertAll_of_ne haccepts (ne_of_held hnew hheld)
      index := fun _ _ h => Index.get?_insertAll_of_some haccepts h }

theorem grows_leave {s t : Session} {path : String} {kind : PackageKind}
    (hnew : ¬ s.Held path) (h : Grows ((s.recordKind path kind).enter path) t) :
    Grows s t.leave := by
  have hheld : forall other, s.Held other -> ((s.recordKind path kind).enter path).Held other := by
    intro other hother
    rcases hother with hentry | hpending
    · exact Or.inl hentry
    · exact Or.inr (List.mem_append_left _ hpending)
  exact
    { setup := h.setup
      pending := by
        show t.pending.dropLast = s.pending
        rw [h.pending]
        exact List.dropLast_concat
      cache := fun other hother => h.cache other (hheld other hother)
      kinds := fun other hother =>
        (h.kinds other (hheld other hother)).trans
          (Table.get?_insert_of_ne s.kinds kind (ne_of_held hnew hother))
      package := fun other hother => h.package other (hheld other hother)
      index := h.index }

/-!
# Whole requests
-/

def Growing (importer : Importer) : Prop :=
  forall q s, Grows s (importer q s).2

theorem grows_check {importer : Importer} (himporter : Growing importer)
    {source : LoadedPackage} {checker : Checker} {s t : Session} {outcome : CheckOutcome}
    (h : (checker source).run importer s = (outcome, t)) : Grows s t := by
  have hrun := Inquiry.run_rel Grows.refl (fun _ _ _ => Grows.trans)
    himporter (checker source) s
  rw [h] at hrun
  exact hrun

structure Entered (s : Session) (path : String) (kind : PackageKind) (t : Session) : Prop where
  grows : Grows s t.leave
  new : ¬ t.leave.Held path
  kind : t.kinds.get? path = some kind

theorem entered_of_grows {s t : Session} {path : String} {kind : PackageKind}
    (hnew : ¬ s.Held path) (h : Grows ((s.recordKind path kind).enter path) t) :
    Entered s path kind t := by
  have hpending : path ∈ ((s.recordKind path kind).enter path).pending :=
    List.mem_append_right _ List.mem_cons_self
  have hgrows := grows_leave hnew h
  refine ⟨hgrows, ?_, ?_⟩
  · rw [not_held_iff] at hnew ⊢
    refine ⟨?_, hgrows.pending ▸ hnew.2⟩
    exact (h.cache path (Or.inr hpending)).trans hnew.1
  · exact (h.kinds path (Or.inr hpending)).trans (Table.get?_insert_self s.kinds path kind)

theorem entered_check {importer : Importer} (himporter : Growing importer)
    {path : String} {kind : PackageKind} {source : LoadedPackage} {s t : Session}
    {outcome : CheckOutcome} (hnew : ¬ s.Held path)
    (hcheck : (s.setup.checker source).run importer
      ((s.recordKind path kind).enter path).countLoad.countCheck = (outcome, t)) :
    Entered s path kind (t.capture outcome.errors) :=
  entered_of_grows hnew
    ((((grows_countLoad _).trans (grows_countCheck _)).trans (grows_check himporter hcheck)).trans
      (grows_capture t outcome.errors))

theorem entered_of_loads {importer : Importer} (himporter : Growing importer)
    {path : String} {kind : PackageKind} {dir : Path} {s t : Session}
    {r : Except Error Package} (hnew : ¬ s.Held path)
    (h : Loads importer path kind dir ((s.recordKind path kind).enter path) r t) :
    Entered s path kind t := by
  cases h with
  | unreadable hload => exact entered_of_grows hnew (grows_countLoad _)
  | rejected hload hcheck hverdict => exact entered_check himporter hnew hcheck
  | refused hload hcheck hverdict hmerge => exact entered_check himporter hnew hcheck
  | @merged source outcome u index hload hcheck hverdict hmerge =>
      have hentered := entered_check himporter hnew hcheck
      have hmerged : Grows (u.capture outcome.errors).leave
          { (u.capture outcome.errors).leave with index := index } :=
        grows_merge hentered.new hmerge
      exact ⟨hentered.grows.trans hmerged, hentered.new, hentered.kind⟩

theorem grows_of_opens {importer : Importer} (himporter : Growing importer)
    {path : String} {origin : Option Path} {s t : Session} {r : Except Error (Option Package)}
    (hnew : ¬ s.Held path) (h : Opens importer path origin s r t) : Grows s t := by
  cases h with
  | misnamed hfound => exact Grows.refl s
  | absent hfound hkind =>
      exact (grows_recordKind hnew .absent).trans (grows_remember (s := s.recordKind path .absent)
        hnew _)
  | system hfound hkind =>
      exact (grows_recordKind hnew .system).trans (grows_remember (s := s.recordKind path .system)
        hnew _)
  | broken hsource hload hinvariant =>
      exact (entered_of_loads himporter hnew (loads_of_run hload)).grows
  | failed hsource hload hinvariant =>
      have hentered := entered_of_loads himporter hnew (loads_of_run hload)
      exact hentered.grows.trans (grows_remember hentered.new _)
  | resolved hsource hload =>
      have hentered := entered_of_loads himporter hnew (loads_of_run hload)
      exact hentered.grows.trans (grows_remember hentered.new _)

theorem grows_of_requests {bound : Nat}
    (himporter : forall n, n < bound -> Growing (importerWithin n)) {path : String}
    {origin : Option Path} {s t : Session} {r : Except Error (Option Package)}
    (h : Requests path origin s bound r t) : Grows s t := by
  cases h with
  | cached hentry => exact (grows_countRequest s).trans (grows_countHit _)
  | cyclic hnew hpending => exact grows_countRequest s
  | exhausted hnew => exact grows_countRequest s
  | @opened bound _ _ hnew hopens =>
      exact (grows_countRequest s).trans
        (grows_of_opens (himporter bound (Nat.lt_succ_self bound)) hnew hopens)

theorem growing_importerWithin (bound : Nat) : Growing (importerWithin bound) := by
  -- A check inside this one runs with a smaller bound, and so do all those inside it.
  induction bound using Nat.strongRecOn with
  | ind bound ih =>
      intro q s
      exact grows_of_requests ih (requests_of_run rfl)

theorem grows_resolveWithin (bound : Nat) (path : String) (origin : Option Path) (s : Session) :
    Grows s ((resolveWithin bound path origin).run s).2 :=
  grows_of_requests (fun n _ => growing_importerWithin n) (requests_of_run rfl)

end Session
end GoAtlas
