import GoAtlas.Proofs.Check.Values

/-!
# Values that links find

Links that remember and keep track of what is pending lead to the values of declarations, also in a
scope with the same declarations elsewhere: whatever they find without a complaint is a value, and
every value is found.
-/

namespace GoAtlas

open Scope (Pending)

namespace Scope

/-!
# The same declarations
-/

structure Corresponds (sc other : Scope) : Prop extends Alike sc other where
  declared : forall name d, sc.types.get? name = some d ->
    exists f, Source.KeepsText f ∧ other.types.get? name = some (d.relocate f)
  constant : forall name d, sc.const? name = some d ->
    exists f, Source.KeepsText f ∧ other.const? name = some (d.relocate f)

namespace Corresponds

variable {sc other : Scope}

theorem undeclared (h : Corresponds sc other) {name : String}
    (hnone : other.types.get? name = none) : sc.types.get? name = none := by
  cases hd : sc.types.get? name with
  | none => rfl
  | some d =>
      rcases h.declared name d hd with ⟨f, _, hmoved⟩
      cases hnone.symm.trans hmoved

theorem declares (h : Corresponds sc other) {name : String} {d' : TypeDecl}
    (hd' : other.types.get? name = some d') :
    exists d f, sc.types.get? name = some d ∧ Source.KeepsText f ∧ d' = d.relocate f := by
  have hsome : (sc.types.get? name).isSome = true := by
    have hcontains := h.contains name
    unfold Table.contains at hcontains
    rw [← hcontains, hd']
    rfl
  rcases Option.isSome_iff_exists.mp hsome with ⟨d, hd⟩
  rcases h.declared name d hd with ⟨f, hf, hmoved⟩
  exact ⟨d, f, hd, hf, Option.some.inj (hd'.symm.trans hmoved)⟩

theorem constants (h : Corresponds sc other) {name : String} {d' : ConstDecl}
    (hd' : other.const? name = some d') :
    exists d f, sc.const? name = some d ∧ Source.KeepsText f ∧ d' = d.relocate f := by
  rcases Option.bind_eq_some_iff.mp hd' with ⟨j, hj, _⟩
  have hsome : (sc.constIndex? name).isSome = true := by
    rw [← h.isSome_constIndex, hj]
    rfl
  rcases Option.isSome_iff_exists.mp hsome with ⟨i, hi⟩
  rcases const?_of_index hi with ⟨d, _, _, hd⟩
  rcases h.constant name d hd with ⟨f, hf, hmoved⟩
  exact ⟨d, f, hd, hf, Option.some.inj (hd'.symm.trans hmoved)⟩

theorem saying (h : Corresponds sc other) {k : Pending} (hk : other.Named k)
    {d' : Saying k.Result} (hd' : other.saying? k = some d') :
    exists body : Links -> Resolve k.Result,
      (forall answers w,
        (sc.refine answers w).value? other k = (body (sc.assume w)).clean? answers) ∧
      forall {T : Tracking}, T.Lawful -> forall {links links' : Links},
        TrackedLinks T sc other links links' -> Tracks T (body links) (d'.body links') := by
  match k with
  | .alias name =>
      rcases Option.map_eq_some_iff.mp hd' with ⟨_, hdecl, rfl⟩
      rcases h.declares hdecl with ⟨d, f, hd, hf, rfl⟩
      refine ⟨fun links => sc.aliasBody links d, ?_,
        fun hT _ _ hlinks => tracks_aliasBody hT h.toAlike hlinks hf d⟩
      intro answers w
      simp only [Values.value?, refine, hd]
  | .type name =>
      rcases Option.map_eq_some_iff.mp hd' with ⟨_, hdecl, rfl⟩
      rcases h.declares hdecl with ⟨d, f, hd, hf, rfl⟩
      refine ⟨fun links => sc.typeBody links d, ?_,
        fun hT _ _ hlinks => tracks_typeBody hT h.toAlike hlinks hf d⟩
      intro answers w
      simp only [Values.value?, refine, hd]
  | .const i =>
      rcases Option.map_eq_some_iff.mp hd' with ⟨_, hdecl, rfl⟩
      rcases hk with ⟨name, hi⟩
      rcases const?_of_index hi with ⟨_, hget, _, hconst⟩
      cases hdecl.symm.trans hget
      rcases h.constants hconst with ⟨d, f, hd, hf, rfl⟩
      refine ⟨fun links => sc.constBody links d, ?_,
        fun hT _ _ hlinks => tracks_constBody hT h.toAlike hlinks hf d _⟩
      intro answers w
      rw [value?_const hi]
      simp only [refine, hd]

theorem unsaid (h : Corresponds sc other) {k : Pending} (hk : other.Named k)
    (hnone : other.saying? k = none) (answers : Answers) (w : Values) :
    (sc.refine answers w).value? other k = some k.nothing := by
  match k with
  | .alias name | .type name =>
      have hundeclared := h.undeclared (Option.map_eq_none_iff.mp hnone)
      simp only [Values.value?, refine, hundeclared, Pending.nothing]
  | .const i =>
      rcases hk with ⟨name, hi⟩
      rcases const?_of_index hi with ⟨_, hget, _, _⟩
      cases hget.symm.trans (Option.map_eq_none_iff.mp hnone)

end Corresponds

/-!
# What links find
-/

structure Faithful (s : Scope) (v : Values) (p : Progress) : Prop where
  aliased : forall name type, p.aliases.get? name = some type -> v.aliased name = some type
  underlying : forall name type, p.underlying.get? name = some type ->
    v.underlying name = some type
  const : forall name i value, s.constIndex? name = some i -> p.values.lookup i = some value ->
    v.const name = some value

theorem ofMemory_faithful (s : Scope) (v : Values) : Progress.OfMemory (s.Faithful v) := by
  intro p q haliases hunderlying hvalues h
  constructor
  · rw [haliases]
    exact h.aliased
  · rw [hunderlying]
    exact h.underlying
  · rw [hvalues]
    exact h.const

theorem faithful_blank (s : Scope) (v : Values) (packages : Table (Option Package))
    (errors : List TypeError) :
    s.Faithful v ⟨packages, Table.empty, Table.empty, [], errors⟩ :=
  ⟨fun _ _ h => (by cases h), fun _ _ h => (by cases h), fun _ _ _ _ h => (by cases h)⟩

theorem faithful_iff {s : Scope} {v : Values} {p : Progress} :
    s.Faithful v p ↔
      forall k, s.Named k -> forall a, p.recalled k = some a -> v.value? s k = some a := by
  constructor
  · intro h k hk a ha
    match k, hk with
    | .alias name, _ => exact h.aliased name a ha
    | .type name, _ => exact h.underlying name a ha
    | .const i, ⟨name, hi⟩ => exact (value?_const hi v).trans (h.const name i a hi ha)
  · intro h
    constructor
    · exact fun name => h (.alias name) trivial
    · exact fun name => h (.type name) trivial
    · exact fun name i value hi hvalue =>
        (value?_const hi v).symm.trans (h (.const i) ⟨name, hi⟩ value hvalue)

theorem Faithful.record {s : Scope} {v : Values} {p : Progress} (h : s.Faithful v p) {k : Pending}
    {a : k.Result} (ha : v.value? s k = some a) : s.Faithful v (p.record k a) := by
  rw [faithful_iff] at h ⊢
  have hrecalled := Progress.forall_recalled_record
    (P := fun k a => s.Named k -> v.value? s k = some a) (fun k a hold hk => h k hk a hold)
    fun _ => ha
  exact fun j hj b hb => hrecalled j b hb hj

/-!
## Links find values only
-/

section Finding

variable {sc : Scope} {answers : Answers} {v : Values}

theorem clean_of_body {α : Type} {body body' : Resolve α}
    (h : Tracks (.clean answers (sc.Faithful v) fun _ => True) body body') {p : Progress}
    (htold : p.Told answers) (hfaithful : sc.Faithful v p)
    (hclean : ¬ Complained (body.outcome answers p).2.errors) :
    body'.clean? answers = some (body.outcome answers p).1 ∧
      (body.outcome answers p).2.Told answers ∧ sc.Faithful v (body.outcome answers p).2 := by
  have hstart : Progress.Clean answers (sc.Faithful v) (fun _ => True) p .blank :=
    ⟨htold, Progress.told_blank answers, Progress.not_complained_blank, hfaithful, trivial⟩
  rcases h.clean hstart hclean with ⟨hresult, hend⟩
  exact ⟨Resolve.clean?_eq_some_iff.mpr ⟨hresult.symm, hend.clean⟩, hend.told, hend.memory⟩

/-- A link that remembers values leads to a value or to a complaint, if what it needs does. -/
theorem tracks_follow (hclosed : (sc.refine answers v).Within v) {fuel : Nat}
    {pending : List Pending} {k : Pending} (hk : sc.Named k)
    (hdeeper : k ∈ sc.allPending -> k ∉ pending ->
      TrackedLinks (.clean answers (sc.Faithful v) fun _ => True) sc sc
        (sc.linksWithin fuel (k :: pending)) (sc.assume v)) :
    Tracks (.clean answers (sc.Faithful v) fun _ => True)
      ((sc.linksWithin (fuel + 1) pending).follow k) ((sc.assume v).follow k) := by
  have hT := Tracking.lawful_clean answers (sc.ofMemory_faithful v) Progress.ofMemory_true
  have hrefined := value?_refine hk answers v
  refine Tracks.of_clean ((sc.steady_linksWithin (fuel + 1) pending).follow k) ?_
  intro p q h
  rw [follow_assume]
  refine follow_cases (P := fun r => Complained r.2.errors ∨
    (r.1 = _ ∧ Progress.Clean answers (sc.Faithful v) (fun _ => True) r.2 _)) ?_ ?_ ?_ ?_
  · intro a ha
    rw [faithful_iff.mp h.memory k hk a ha]
    exact Or.inr ⟨rfl, h⟩
  · intro hnone
    rw [hnone] at hrefined
    rw [hclosed.value? hrefined]
    exact Or.inr ⟨rfl, h⟩
  · exact fun d _ _ => Or.inl ⟨_, List.mem_append_right _ List.mem_cons_self, rfl⟩
  · intro d hd hnew
    have hbody := tracks_saying hT (hdeeper (mem_allPending_of_saying hd) hnew) hd
    dsimp only
    by_cases hlost : Complained
        ((d.body (sc.linksWithin fuel (k :: pending))).outcome answers p).2.errors
    · exact Or.inl (by rwa [Progress.errors_record])
    · rcases clean_of_body hbody h.told h.memory hlost with ⟨hvalue, htold, hmemory⟩
      rw [hd] at hrefined
      have hfound := hclosed.value? (hrefined.trans hvalue)
      rw [hfound]
      refine Or.inr ⟨rfl, ?_, h.told', h.clean, hmemory.record hfound, h.memory'⟩
      rwa [Progress.Told, Progress.packages_record]

/-- Links never find anything but values, if all that follows from values is a value. -/
theorem tracks_linksWithin (hclosed : (sc.refine answers v).Within v) {fuel : Nat}
    {pending : List Pending} (hample : sc.Ample fuel pending) :
    TrackedLinks (.clean answers (sc.Faithful v) fun _ => True) sc sc
      (sc.linksWithin fuel pending) (sc.assume v) := by
  induction fuel generalizing pending with
  | zero => exact hample.not_zero.elim
  | succ fuel ih =>
      exact trackedLinks_iff.mpr fun k hk =>
        tracks_follow hclosed hk fun hdeclared hnew => ih (hample.enter hdeclared hnew)

end Finding

/-!
## Links find all values
-/

def Lacks (s : Scope) (v : Values) : Pending -> Prop
  | .alias name => v.aliased name = none
  | .type name => v.underlying name = none
  | .const i => forall name, s.constIndex? name = some i -> v.const name = none

theorem lacks_iff {s : Scope} {v : Values} {k : Pending} :
    s.Lacks v k ↔ (s.Named k -> v.value? s k = none) := by
  match k with
  | .alias name | .type name => exact ⟨fun h _ => h, fun h => h trivial⟩
  | .const i =>
      constructor
      · rintro h ⟨name, hi⟩
        exact (value?_const hi v).trans (h name hi)
      · exact fun h name hi => (value?_const hi v).symm.trans (h ⟨name, hi⟩)

theorem Lacks.within {s : Scope} {v w : Values} {k : Pending} (h : s.Lacks w k)
    (hvw : v.Within w) : s.Lacks v k := by
  rw [lacks_iff] at h ⊢
  intro hk
  cases hv : v.value? s k with
  | none => rfl
  | some a => cases (h hk).symm.trans (hvw.value? hv)

section Reaching

variable {sc other : Scope} {answers : Answers} {v : Values}

theorem body_of_clean {α : Type} {body body' : Resolve α} {a : α}
    (h : Tracks (.clean answers (fun _ => True) (other.Faithful v)) body body')
    (hvalue : body.clean? answers = some a) {q : Progress} (htold : q.Told answers)
    (hclean : ¬ Complained q.errors) (hfaithful : other.Faithful v q) :
    (body'.outcome answers q).1 = a ∧ (body'.outcome answers q).2.Told answers ∧
      ¬ Complained (body'.outcome answers q).2.errors ∧
        other.Faithful v (body'.outcome answers q).2 := by
  rcases Resolve.clean?_eq_some_iff.mp hvalue with ⟨hresult, hblank⟩
  have hstart : Progress.Clean answers (fun _ => True) (other.Faithful v) .blank q :=
    ⟨Progress.told_blank answers, htold, hclean, trivial, hfaithful⟩
  rcases h.clean hstart hblank with ⟨hsame, hend⟩
  exact ⟨hsame.symm.trans hresult, hend.told', hend.clean, hend.memory'⟩

theorem tracks_follow_found (hscope : Corresponds sc other) {w : Values}
    (hv : (sc.refine answers w).Within v) {fuel : Nat} {pending : List Pending} {k : Pending}
    (hk : other.Named k) (hfree : k ∉ pending) {a : k.Result}
    (ha : (sc.refine answers w).value? other k = some a)
    (hdeeper : k ∈ other.allPending ->
      TrackedLinks (.clean answers (fun _ => True) (other.Faithful v)) sc other (sc.assume w)
        (other.linksWithin fuel (k :: pending))) :
    Tracks (.clean answers (fun _ => True) (other.Faithful v)) (Resolve.given (some a) k.nothing)
      ((other.linksWithin (fuel + 1) pending).follow k) := by
  have hT := Tracking.lawful_clean answers Progress.ofMemory_true (other.ofMemory_faithful v)
  refine Tracks.of_clean (Resolve.steady_given _ _) ?_
  intro p q h
  refine Or.inr (follow_cases (P := fun r => a = r.1 ∧
    Progress.Clean answers (fun _ => True) (other.Faithful v) p r.2) ?_ ?_ ?_ ?_)
  · intro b hb
    have hvalue := faithful_iff.mp h.memory' k hk b hb
    exact ⟨Option.some.inj ((hv.value? ha).symm.trans hvalue), h⟩
  · intro hnone
    exact ⟨Option.some.inj (ha.symm.trans (hscope.unsaid hk hnone answers w)), h⟩
  · exact fun _ _ hpending => absurd hpending hfree
  · intro d hd _
    rcases hscope.saying hk hd with ⟨body, hvalue, htracks⟩
    have hbody := htracks hT (hdeeper (mem_allPending_of_saying hd))
    rcases body_of_clean hbody ((hvalue answers w).symm.trans ha) h.told' h.clean h.memory' with
      ⟨hresult, htold, hclean, hmemory⟩
    rw [hresult]
    refine ⟨rfl, h.told, ?_, ?_, h.memory, hmemory.record (hv.value? ha)⟩
    · rwa [Progress.Told, Progress.packages_record]
    · rwa [Progress.errors_record]

theorem TrackedLinks.of_assume {T : Tracking} {w : Values} {links : Links}
    (h : TrackedLinks T other other (other.assume w) links) :
    TrackedLinks T sc other (sc.assume w) links where
  aliased := h.aliased
  underlying := h.underlying
  const name i j hi hj := by
    rw [assume_const hi, ← assume_const hj]
    exact h.const name j j hj hj

/-- Links of the other scope find the values of a level if nothing is pending that has a value
at that level: a value that is new at the level needs only older ones, and it is not pending
itself. -/
theorem tracks_found (hscope : Corresponds sc other)
    (hv : forall level, (sc.found answers level).Within v) (level : Nat) {fuel : Nat}
    {pending : List Pending} (hample : other.Ample fuel pending)
    (hlacks : forall r, r ∈ pending -> other.Lacks (sc.found answers level) r) :
    TrackedLinks (.clean answers (fun _ => True) (other.Faithful v)) other other
      (other.assume (sc.found answers level)) (other.linksWithin fuel pending) := by
  induction level generalizing fuel pending with
  | zero =>
      constructor
      · exact fun name => tracks_given_none
      · exact fun name => tracks_given_none
      · intro name i j hi hj
        rw [assume_const hi]
        exact tracks_given_none
  | succ level ih =>
      have holder := found_within_succ sc answers level
      -- Older values are found by the hypothesis.
      have hold := ih hample fun r hr => (hlacks r hr).within holder
      obtain ⟨fuel, rfl⟩ := hample.exists_succ
      refine trackedLinks_iff.mpr fun k hk => ?_
      have hlink := trackedLinks_iff.mp hold k hk
      rw [follow_assume] at hlink ⊢
      cases hvalue : (sc.found answers (level + 1)).value? other k with
      | none => exact tracks_given_none
      | some a =>
          cases hnew : (sc.found answers level).value? other k with
          | some b =>
              cases hvalue.symm.trans (holder.value? hnew)
              rwa [hnew] at hlink
          | none =>
              have hfree : k ∉ pending := fun hpending => by
                cases hvalue.symm.trans (lacks_iff.mp (hlacks k hpending) hk)
              refine tracks_follow_found hscope (hv (level + 1)) hk hfree hvalue fun hdeclared => ?_
              refine (ih (hample.enter hdeclared hfree) ?_).of_assume
              exact List.forall_mem_cons.mpr ⟨lacks_iff.mpr fun _ => hnew,
                fun r hr => (hlacks r hr).within holder⟩

end Reaching

end Scope
end GoAtlas
