import GoAtlas.Proofs.Check.Declarations
import GoAtlas.Proofs.Check.PackageTrails

/-!
# Constants without a value

The second pass books no complaint about names, and whenever it finds that a constant has no value,
there is no expression for it or a hard complaint about the one there is.
-/

namespace GoAtlas

open Scope (Pending)

def ConstDecl.Accused (d : ConstDecl) (errors : List TypeError) : Prop :=
  d.expr = none ∨ exists cause,
    ⟨.invalidConstant d.name cause, false, some d.file, some d.spec.line⟩ ∈ errors

theorem ConstDecl.Accused.mono {d : ConstDecl} {errors more : List TypeError}
    (h : d.Accused errors) (hmore : errors ⊆ more) : d.Accused more := by
  rcases h with hnone | ⟨cause, hcause⟩
  · exact Or.inl hnone
  · exact Or.inr ⟨cause, hmore hcause⟩

namespace Scope

def Excuses (sc : Scope) (errors : List TypeError) : (k : Pending) -> k.Result -> Prop
  | .const i, value => value = none -> forall d, sc.consts[i]? = some d -> d.Accused errors
  | .alias _, _ => True
  | .type _, _ => True

theorem Excuses.mono {sc : Scope} {errors more : List TypeError} {k : Pending} {a : k.Result}
    (h : sc.Excuses errors k a) (hmore : errors ⊆ more) : sc.Excuses more k a := by
  match k with
  | .const _ => exact fun hnone d hd => (h hnone d hd).mono hmore
  | .alias _ | .type _ => trivial

def Explained (sc : Scope) (p : Progress) : Prop :=
  forall k a, p.recalled k = some a -> sc.Excuses p.errors k a

/-- The second state comes after the first: nothing was booked, and constants without a value are
still explained. -/
structure Onward (sc : Scope) (p q : Progress) : Prop where
  unbooked : Unbooked p.errors q.errors
  explained : sc.Explained p -> sc.Explained q

namespace Onward

variable {sc : Scope} {p q r : Progress}

theorem refl (p : Progress) : sc.Onward p p := ⟨Unbooked.refl _, id⟩

theorem trans (h : sc.Onward p q) (h' : sc.Onward q r) : sc.Onward p r :=
  ⟨h.unbooked.trans h'.unbooked, fun hp => h'.explained (h.explained hp)⟩

theorem of_unbooked (hrecall : forall k, q.recalled k = p.recalled k)
    (h : Unbooked p.errors q.errors) : sc.Onward p q := by
  refine ⟨h, fun hp k a ha => ?_⟩
  rw [hrecall] at ha
  exact (hp k a ha).mono h.subset

theorem complained {file : String} {line : Nat} {isSoft : Bool} {complaint : Complaint}
    (h : complaint.isBooked = false) : sc.Onward p (p.complained file line isSoft complaint) := by
  refine of_unbooked (fun k => ?_) (Unbooked.single h)
  match k with
  | .alias _ | .type _ | .const _ => rfl

theorem record {k : Pending} {a : k.Result} (h : sc.Excuses p.errors k a) :
    sc.Onward p (p.record k a) := by
  refine ⟨by rw [Progress.errors_record]; exact Unbooked.refl _, fun hp => ?_⟩
  unfold Explained
  rw [Progress.errors_record]
  exact Progress.forall_recalled_record hp h

end Onward

/-!
# Passes that go onward
-/

section Passes

variable {sc : Scope} {answers : Answers} {links : Links}

theorem accused_constBody {d : ConstDecl} {p : Progress}
    (h : ((sc.constBody links d).outcome answers p).1 = none) :
    d.Accused ((sc.constBody links d).outcome answers p).2.errors := by
  unfold constBody at h ⊢
  split at h
  · next hexpr => exact Or.inl hexpr
  · next expr hexpr =>
      simp only [Resolve.outcome_bind] at h ⊢
      split at h
      · cases h
      · next cause _ => exact Or.inr ⟨cause, List.mem_append_right _ (List.mem_singleton_self _)⟩

theorem carries_onward (hlinks : forall k p, sc.Onward p ((links.follow k).outcome answers p).2) :
    Carries sc answers links (fun complaint => complaint.isBooked = false) sc.Onward where
  refl := Onward.refl
  trans := Onward.trans
  complained _ _ _ _ _ h := Onward.complained h
  asked p path := by
    obtain ⟨packages, hstate⟩ := Resolve.state_packageAt answers path p
    rw [hstate]
    refine Onward.of_unbooked (fun k => ?_) (Unbooked.refl _)
    match k with
    | .alias _ | .type _ | .const _ => rfl
  followed k p _ := hlinks k p

end Passes

theorem setting_books (sc : Scope) : Setting sc sc (fun _ _ => True)
    (fun complaint => complaint.isBooked = false) sc.Spells := by
  refine sc.setting_self fun complaint hbody => ?_
  cases complaint with
  | notType _ | undefined _ | notExported _ _ | arrayLength _ | fieldRedeclared _
  | duplicateMethod _ | invalidConstant _ _ => rfl
  | _ => cases hbody

theorem onward_follow (sc : Scope) (answers : Answers) (fuel : Nat) (pending : List Pending)
    (k : Pending) (p : Progress) :
    sc.Onward p (((sc.linksWithin fuel pending).follow k).outcome answers p).2 := by
  induction fuel generalizing pending k p with
  | zero =>
      match k with
      | .alias _ | .type _ | .const _ => exact Onward.refl p
  | succ fuel ih =>
      refine follow_cases (P := fun r => sc.Onward p r.2) ?_ ?_ ?_ ?_
      · exact fun _ _ => Onward.refl p
      · exact fun _ => Onward.refl p
      · intro d hd _
        refine Onward.complained ?_
        match k with
        | .alias _ | .type _ | .const _ =>
            obtain ⟨_, _, rfl⟩ := Option.map_eq_some_iff.mp hd
            rfl
      · intro d hd _
        obtain ⟨_, _, _, _, _, htrail⟩ := trail_saying sc.setting_books hd
        have hbody := ((carries_onward (ih (k :: pending))).trail htrail p).2
        refine hbody.trans (Onward.record ?_)
        match k with
        | .alias _ | .type _ => trivial
        | .const i =>
            obtain ⟨c, hc, rfl⟩ := Option.map_eq_some_iff.mp hd
            intro hnone c' hc'
            cases hc.symm.trans hc'
            exact accused_constBody hnone

theorem onward_links (sc : Scope) (answers : Answers) (k : Pending) (p : Progress) :
    sc.Onward p ((sc.links.follow k).outcome answers p).2 :=
  sc.onward_follow answers sc.linkDepth [] k p

/-- A constant that turns out to have no value is accused. -/
theorem accused_of_const {sc : Scope} (answers : Answers) {i : Nat} {d : ConstDecl} {p : Progress}
    (hp : sc.Explained p) (hd : sc.consts[i]? = some d)
    (h : ((sc.links.const i).outcome answers p).1 = none) :
    d.Accused ((sc.links.const i).outcome answers p).2.errors := by
  have hsaying : sc.saying? (.const i) = some
      ⟨d.file, d.spec.line, .initializationCycle d.name, fun links => sc.constBody links d⟩ :=
    Option.map_eq_some_iff.mpr ⟨d, hd, rfl⟩
  have hfollow : (sc.links.const i).outcome answers p =
      ((sc.linksWithin sc.linkDepth []).follow (.const i)).outcome answers p := rfl
  unfold linkDepth at hfollow
  cases hknown : p.recalled (.const i) with
  | some value =>
      rw [outcome_follow_known hknown] at hfollow
      rw [hfollow] at h ⊢
      exact hp _ _ hknown h d hd
  | none =>
      rw [outcome_follow_new hknown hsaying List.not_mem_nil] at hfollow
      rw [hfollow] at h ⊢
      exact accused_constBody h

/-!
# Passes over lists
-/

theorem onward_mapM (sc : Scope) (answers : Answers) {α β : Type} {items : List α}
    {f : α -> Resolve β} {Q : α -> β -> List TypeError -> Prop}
    (hmono : forall a b errors more, errors ⊆ more -> Q a b errors -> Q a b more)
    (h : forall a p, a ∈ items -> sc.Explained p -> sc.Onward p ((f a).outcome answers p).2 ∧
      Q a ((f a).outcome answers p).1 ((f a).outcome answers p).2.errors) {p : Progress}
    (hp : sc.Explained p) :
    sc.Onward p ((items.mapM f).outcome answers p).2 ∧
      List.Forall₂ (fun a b => Q a b ((items.mapM f).outcome answers p).2.errors) items
        ((items.mapM f).outcome answers p).1 := by
  exact Resolve.forall₂_mapM (Q := fun a b q => Q a b q.errors) Onward.refl Onward.trans
    Onward.explained (fun hpq => hmono _ _ _ _ hpq.unbooked.subset) h hp

end Scope

end GoAtlas
