import GoAtlas.Proofs.Check.Pending
import GoAtlas.Proofs.Lists

/-!
# Checks that stay in step

A tracking without loss compares checks that never give up.  If related states remember the same,
and still do so when both remember one thing more, then the links of two scopes with the same
declarations are in step, wherever these declarations stand.
-/

namespace GoAtlas

/-!
# Trackings without loss
-/

/-- Neither check ever gives up. -/
structure Tracking.Lossless (T : Tracking) : Prop where
  left : forall p, ¬ T.LostLeft p
  right : forall p, ¬ T.LostRight p

/-- Related states remember the same and stay related when they remember more. -/
structure Tracking.Remembers (T : Tracking) : Prop where
  aliases : forall p q, T.Rel p q -> p.aliases = q.aliases
  underlying : forall p q, T.Rel p q -> p.underlying = q.underlying
  values : forall p q, T.Rel p q -> p.values = q.values
  recordAlias : forall name type p q, T.Rel p q ->
    T.Rel (p.recordAlias name type) (q.recordAlias name type)
  recordUnderlying : forall name type p q, T.Rel p q ->
    T.Rel (p.recordUnderlying name type) (q.recordUnderlying name type)
  recordValue : forall i value p q, T.Rel p q ->
    T.Rel (p.recordValue i value) (q.recordValue i value)

section Lossless

variable {T : Tracking} {α : Type}

theorem Tracks.of_related (hloss : T.Lossless) {m n : Resolve α}
    (h : forall p q, T.Rel p q ->
      (m.outcome T.left p).1 = (n.outcome T.right q).1 ∧
        T.Rel (m.outcome T.left p).2 (n.outcome T.right q).2) : Tracks T m n where
  left p hlost := (hloss.left p hlost).elim
  right p hlost := (hloss.right p hlost).elim
  both p q hpq := Or.inr (Or.inr (h p q hpq))

theorem Tracks.related (hloss : T.Lossless) {m n : Resolve α} (h : Tracks T m n)
    {p q : Progress} (hpq : T.Rel p q) :
    (m.outcome T.left p).1 = (n.outcome T.right q).1 ∧
      T.Rel (m.outcome T.left p).2 (n.outcome T.right q).2 := by
  rcases h.both p q hpq with hlost | hlost | hboth
  · exact (hloss.left _ hlost).elim
  · exact (hloss.right _ hlost).elim
  · exact hboth

theorem Tracking.Remembers.recalled (h : T.Remembers) {p q : Progress} (hpq : T.Rel p q)
    (k : Scope.Pending) : p.recalled k = q.recalled k := by
  match k with
  | .alias name => exact congrArg (·.get? name) (h.aliases p q hpq)
  | .type name => exact congrArg (·.get? name) (h.underlying p q hpq)
  | .const i => exact congrArg (·.lookup i) (h.values p q hpq)

theorem Tracking.Remembers.record (h : T.Remembers) {p q : Progress} (hpq : T.Rel p q)
    (k : Scope.Pending) (a : k.Result) : T.Rel (p.record k a) (q.record k a) := by
  match k with
  | .alias name => exact h.recordAlias name a p q hpq
  | .type name => exact h.recordUnderlying name a p q hpq
  | .const i => exact h.recordValue i a p q hpq

end Lossless

/-!
# Moved scopes
-/

def TypeDecl.Moved (d d' : TypeDecl) : Prop :=
  exists f, Source.KeepsText f ∧ d' = d.relocate f

def ConstDecl.Moved (d d' : ConstDecl) : Prop :=
  exists f spec, Source.KeepsText f ∧ d' = { d.relocate f with spec := spec }

theorem TypeDecl.moved_refl (d : TypeDecl) : d.Moved d :=
  ⟨id, Scope.keepsText_id, d.relocate_id.symm⟩

theorem ConstDecl.moved_refl (d : ConstDecl) : d.Moved d := by
  refine ⟨id, d.spec, Scope.keepsText_id, ?_⟩
  rw [d.relocate_id]

theorem ConstDecl.Moved.name {d d' : ConstDecl} (h : d.Moved d') : d'.name = d.name := by
  rcases h with ⟨f, spec, _, rfl⟩
  rfl

namespace Scope

structure Moved (sc other : Scope) : Prop where
  alike : Alike sc other
  types : forall name, Option.Rel TypeDecl.Moved (sc.types.get? name) (other.types.get? name)
  consts : List.Forall₂ ConstDecl.Moved sc.consts other.consts

theorem Moved.refl (sc : Scope) : sc.Moved sc where
  alike := .refl sc
  types name := by
    cases sc.types.get? name with
    | none => exact .none
    | some d => exact .some d.moved_refl
  consts := List.forall₂_same.mpr fun d _ => d.moved_refl

theorem constIndex?_of_moved {consts consts' : List ConstDecl}
    (h : List.Forall₂ ConstDecl.Moved consts consts') (name : String) :
    (consts'.findIdx? fun c => c.name == name) = consts.findIdx? fun c => c.name == name := by
  induction h with
  | nil => rfl
  | cons hmoved _ ih => rw [List.findIdx?_cons, List.findIdx?_cons, hmoved.name, ih]

section Links

variable {T : Tracking} {sc other : Scope} {links links' : Links}

theorem StepLinks.between (h : StepLinks T sc links links') (hscope : sc.Moved other) :
    TrackedLinks T sc other links links' where
  aliased := h.aliased
  underlying := h.underlying
  const name i j hi hj := by
    have hindex : other.constIndex? name = sc.constIndex? name :=
      constIndex?_of_moved hscope.consts name
    cases hj.symm.trans (hindex.trans hi)
    rcases List.findIdx?_eq_some_iff_getElem.mp hi with ⟨hlength, _⟩
    exact h.const i _ (List.getElem?_eq_getElem hlength)

/-- Two declarations that say the same in step, and that complain of the same if they need
themselves. -/
structure Echoes (T : Tracking) (sc other : Scope) {β : Type} (d d' : Saying β) : Prop where
  file : d'.file = d.file
  circular : d'.circular = d.circular
  body : forall links links', TrackedLinks T sc other links links' ->
    Tracks T (d.body links) (d'.body links')

theorem Moved.echoes (hscope : sc.Moved other) (hT : T.Lawful) (k : Pending) :
    Option.Rel (Echoes T sc other) (sc.saying? k) (other.saying? k) := by
  match k with
  | .alias name =>
      refine rel_map (hscope.types name) ?_
      rintro d _ ⟨f, hf, rfl⟩
      exact ⟨rfl, rfl, fun _ _ hlinks => tracks_aliasBody hT hscope.alike hlinks hf d⟩
  | .type name =>
      refine rel_map (hscope.types name) ?_
      rintro d _ ⟨f, hf, rfl⟩
      exact ⟨rfl, rfl, fun _ _ hlinks => tracks_typeBody hT hscope.alike hlinks hf d⟩
  | .const i =>
      refine rel_map (rel_getElem? hscope.consts i) ?_
      rintro d _ ⟨f, spec, hf, rfl⟩
      exact ⟨rfl, rfl, fun _ _ hlinks => tracks_constBody hT hscope.alike hlinks hf d spec⟩

theorem tracks_follow_moved (hT : T.Lawful) (hloss : T.Lossless) (hmemory : T.Remembers)
    (hscope : sc.Moved other) {fuel : Nat} {pending : List Pending} (k : Pending)
    (hdeeper : TrackedLinks T sc other (sc.linksWithin fuel (k :: pending))
      (other.linksWithin fuel (k :: pending))) :
    Tracks T ((sc.linksWithin (fuel + 1) pending).follow k)
      ((other.linksWithin (fuel + 1) pending).follow k) := by
  apply Tracks.of_related hloss
  intro p q h
  have hsaying := hscope.echoes hT k
  rw [outcome_follow, outcome_follow, ← hmemory.recalled h k]
  cases p.recalled k with
  | some a => exact ⟨rfl, h⟩
  | none =>
      generalize sc.saying? k = d, other.saying? k = d' at hsaying ⊢
      cases hsaying with
      | none => exact ⟨rfl, h⟩
      | @some d d' hechoes =>
          dsimp only
          split
          · rw [hechoes.file, hechoes.circular]
            exact ⟨rfl, ((hT.report d.file d.line d'.line false d.circular).related hloss h).2⟩
          · rcases (hechoes.body _ _ hdeeper).related hloss h with ⟨hresult, hend⟩
            rw [hresult]
            exact ⟨rfl, hmemory.record hend k _⟩

end Links

theorem steps_linksWithin {T : Tracking} {sc other : Scope} (hT : T.Lawful)
    (hloss : T.Lossless) (hmemory : T.Remembers) (hscope : sc.Moved other) (fuel : Nat)
    (pending : List Pending) :
    StepLinks T sc (sc.linksWithin fuel pending) (other.linksWithin fuel pending) := by
  induction fuel generalizing pending with
  | zero => exact ⟨fun _ => Tracks.pure _, fun _ => Tracks.pure _, fun _ _ _ => Tracks.pure _⟩
  | succ fuel ih =>
      have hdeeper : forall r, TrackedLinks T sc other (sc.linksWithin fuel (r :: pending))
          (other.linksWithin fuel (r :: pending)) := fun r => (ih (r :: pending)).between hscope
      have hfollow := fun k => tracks_follow_moved hT hloss hmemory hscope k (hdeeper k)
      exact
        { aliased := fun name => hfollow (.alias name)
          underlying := fun name => hfollow (.type name)
          const := fun i _ _ => hfollow (.const i) }

end Scope
end GoAtlas
