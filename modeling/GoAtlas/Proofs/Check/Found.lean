import GoAtlas.Proofs.Check.PackageTrails
import GoAtlas.Proofs.Lists

/-!
# What the second pass ends with

The types and constants that a second pass ends with were found on its way, each in some state that
the pass came by.  Whatever no step of the pass loses holds in all of these states.
-/

namespace GoAtlas

open Scope (Pending)

def Kept (sc : Scope) (answers : Answers) (links : Links) (I : Progress -> Prop) : Prop :=
  Carries sc answers links (fun _ => True) fun p q => I p -> I q

namespace Kept

variable {sc : Scope} {answers : Answers} {links : Links} {I : Progress -> Prop} {p : Progress}

theorem of_steps
    (hcomplained : forall p file line isSoft complaint,
      I p -> I (p.complained file line isSoft complaint))
    (hasked : forall p path, I p -> I ((Resolve.packageAt path).outcome answers p).2)
    (hfollowed : forall k p, sc.Has k -> I p -> I ((links.follow k).outcome answers p).2) :
    Kept sc answers links I where
  refl _ := id
  trans h h' := h' ∘ h
  complained p file line isSoft complaint _ := hcomplained p file line isSoft complaint
  asked := hasked
  followed := hfollowed

theorem trail (h : Kept sc answers links I) {α : Type} {F F' : Links -> Resolve α} {Q : α -> Prop}
    (htrail : Trail sc sc (fun _ _ => True) (fun _ => True) F F' Q) (hp : I p) :
    I ((F links).outcome answers p).2 :=
  (Carries.trail h htrail p).2 hp

theorem methods (h : Kept sc answers links I) (hp : I p) :
    I ((sc.methods.foldlM (sc.checkMethodWith links) Table.empty).outcome answers p).2 := by
  have hsetting : sc.Setting sc (fun _ _ => True) (fun _ => True) sc.Spells :=
    sc.setting_self fun _ _ => trivial
  exact h.trail (Trail.foldlM (b := Table.empty) sc.methods
    (fun methods m hm _ => Scope.trail_checkMethodWith hsetting methods hm) trivial) hp

theorem found {α β : Type} {Q : α -> β -> Prop} {items : List α} {f : α -> Resolve β}
    (h : forall a q, a ∈ items -> I q -> I ((f a).outcome answers q).2 ∧
      Q a ((f a).outcome answers q).1) (hp : I p) :
    I ((items.mapM f).outcome answers p).2 ∧
      List.Forall₂ Q items ((items.mapM f).outcome answers p).1 := by
  have hmapM := Resolve.forall₂_mapM (I := I) (R := fun p q => I p -> I q)
    (Q := fun a b _ => Q a b) (fun _ => id) (fun h h' => h' ∘ h) (fun h => h) (fun _ h => h)
    (fun a q ha hq => ⟨fun _ => (h a q ha hq).1, (h a q ha hq).2⟩) hp
  exact ⟨hmapM.1 hp, hmapM.2⟩

end Kept

namespace Scope

/-- A type was found in a state of which it holds: of an alias the type that it stands for, of any
other type the structure. -/
def TypeFound (sc : Scope) (answers : Answers) (links : Links) (I : Progress -> Prop)
    (entry : String × TypeDecl) (d : TypeDef) : Prop :=
  d.name = .declared sc.path entry.1 ∧ exists q, I q ∧
    ((if entry.2.spec.isAlias then links.aliased entry.1
      else links.underlying entry.1).outcome answers q).1 = d.underlying

def ConstFound (answers : Answers) (links : Links) (I : Progress -> Prop)
    (entry : ConstDecl × Nat) (found : Option ConstDef) : Prop :=
  forall c, found = some c -> entry.1.name = c.name ∧ exists q, I q ∧
    ((links.const entry.2).outcome answers q).1 = some (c.value, c.type)

section Found

variable {sc : Scope} {answers : Answers} {links : Links} {I : Progress -> Prop} {p : Progress}

theorem typeFound_typeDefWith (hI : Kept sc answers links I) (hp : I p)
    (methods : Table (List Method)) (entry : String × TypeDecl) :
    I ((sc.typeDefWith links methods entry.1 entry.2).outcome answers p).2 ∧
      sc.TypeFound answers links I entry
        ((sc.typeDefWith links methods entry.1 entry.2).outcome answers p).1 := by
  refine ⟨hI.trail (trail_typeDefWith rfl methods entry.1 entry.2) hp, ?_⟩
  unfold typeDefWith TypeFound
  dsimp only
  split
  · rw [Resolve.outcome_bind]
    exact ⟨rfl, p, hp, rfl⟩
  · rw [Resolve.outcome_bind]
    exact ⟨rfl, p, hp, rfl⟩

theorem constFound_constDefWith (hI : Kept sc answers links I) (hp : I p)
    {entry : ConstDecl × Nat} (hentry : entry ∈ sc.consts.zipIdx) :
    I ((constDefWith links entry.2 entry.1).outcome answers p).2 ∧
      ConstFound answers links I entry
        ((constDefWith links entry.2 entry.1).outcome answers p).1 := by
  refine ⟨hI.trail (trail_constDefWith (List.mem_zipIdx_iff_getElem?.mp hentry)) hp, ?_⟩
  intro c hc
  unfold constDefWith at hc
  rw [Resolve.outcome_bind] at hc
  cases hvalue : ((links.const entry.2).outcome answers p).1 with
  | none =>
      rw [hvalue] at hc
      cases hc
  | some x =>
      rw [hvalue] at hc
      cases hc
      exact ⟨rfl, p, hp, hvalue⟩

theorem typesFound_mapM (hI : Kept sc answers links I) (hp : I p) (methods : Table (List Method)) :
    I ((sc.types.entries.mapM fun entry =>
        sc.typeDefWith links methods entry.1 entry.2).outcome answers p).2 ∧
      List.Forall₂ (sc.TypeFound answers links I) sc.types.entries
        ((sc.types.entries.mapM fun entry =>
          sc.typeDefWith links methods entry.1 entry.2).outcome answers p).1 :=
  Kept.found (fun entry _ _ hq => typeFound_typeDefWith hI hq methods entry) hp

theorem constsFound_mapM (hI : Kept sc answers links I) (hp : I p) :
    I ((sc.consts.zipIdx.mapM fun entry =>
        constDefWith links entry.2 entry.1).outcome answers p).2 ∧
      List.Forall₂ (ConstFound answers links I) sc.consts.zipIdx
        ((sc.consts.zipIdx.mapM fun entry =>
          constDefWith links entry.2 entry.1).outcome answers p).1 :=
  Kept.found (fun _ _ hentry hq => constFound_constDefWith hI hq hentry) hp

/-- The types and constants of a second pass that begins in a state of which it holds. -/
structure AllFound (sc : Scope) (answers : Answers) (links : Links) (I : Progress -> Prop)
    (package : CheckedPackage) : Prop where
  types : List.Forall₂ (sc.TypeFound answers links I) sc.types.entries package.types
  consts : exists found, package.consts = found.filterMap id ∧
    List.Forall₂ (ConstFound answers links I) sc.consts.zipIdx found

theorem allFound_definitionsWith (hI : Kept sc answers links I) (hp : I p) (name : String) :
    sc.AllFound answers links I ((sc.definitionsWith links name).outcome answers p).1 := by
  unfold definitionsWith
  simp only [Resolve.outcome_bind, Resolve.outcome_pure]
  have hmethods := hI.methods hp
  refine ⟨(typesFound_mapM hI hmethods _).2, _, rfl, ?_⟩
  exact (constsFound_mapM hI (typesFound_mapM hI hmethods _).1).2

theorem AllFound.exists_const {package : CheckedPackage}
    (h : sc.AllFound answers links I package) {c : ConstDef} (hc : c ∈ package.consts) :
    exists q i d, I q ∧ sc.consts[i]? = some d ∧ d.name = c.name ∧
      ((links.const i).outcome answers q).1 = some (c.value, c.type) := by
  obtain ⟨found, hfound, hconsts⟩ := h.consts
  rw [hfound] at hc
  obtain ⟨value, hvalue, hsome⟩ := List.mem_filterMap.mp hc
  cases hsome
  obtain ⟨⟨d, i⟩, hentry, hconst⟩ := exists_mem_left hconsts hvalue
  obtain ⟨hname, q, hq, hresult⟩ := hconst c rfl
  exact ⟨q, i, d, hq, List.mem_zipIdx_iff_getElem?.mp hentry, hname, hresult⟩

end Found
end Scope
end GoAtlas
