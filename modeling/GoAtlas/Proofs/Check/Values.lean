import GoAtlas.Proofs.Check.Once

/-!
# Values of declarations

What the declarations of a package stand for can be worked out level by level: a declaration has
a value at the next level if its body needs only values of the level before and leads to no
complaint.  Neither memory nor pending declarations play a part, nor does the order of
declarations, and from some level on there are no further values.
-/

namespace GoAtlas

/-- What is known of the declarations of a package, by name. -/
structure Values where
  aliased : String -> Option GoType
  underlying : String -> Option GoType
  const : String -> Option (Option Valued)

namespace Values

def nothing : Values := ⟨fun _ => none, fun _ => none, fun _ => none⟩

/-- All that is known on the left is known on the right. -/
structure Within (v w : Values) : Prop where
  aliased : forall name type, v.aliased name = some type -> w.aliased name = some type
  underlying : forall name type, v.underlying name = some type -> w.underlying name = some type
  const : forall name value, v.const name = some value -> w.const name = some value

theorem Within.refl (v : Values) : v.Within v :=
  ⟨fun _ _ h => h, fun _ _ h => h, fun _ _ h => h⟩

theorem Within.trans {u v w : Values} (huv : u.Within v) (hvw : v.Within w) : u.Within w :=
  ⟨fun name type h => hvw.aliased name type (huv.aliased name type h),
    fun name type h => hvw.underlying name type (huv.underlying name type h),
    fun name value h => hvw.const name value (huv.const name value h)⟩

theorem nothing_within (v : Values) : nothing.Within v :=
  ⟨fun _ _ h => (by cases h), fun _ _ h => (by cases h), fun _ _ h => (by cases h)⟩

end Values

/-!
# Passes without complaints
-/

namespace Progress

def blank : Progress := ⟨Table.empty, Table.empty, Table.empty, [], []⟩

def Told (answers : Answers) (p : Progress) : Prop :=
  forall q known, p.packages.get? q = some known -> known = (answers q).toOption

theorem told_blank (answers : Answers) : blank.Told answers := by
  intro q known h
  cases h

theorem not_complained_blank : ¬ Complained blank.errors := by
  rintro ⟨e, he, _⟩
  cases he

/-- Two states of which the second has no hard complaint. -/
structure Clean (answers : Answers) (L R : Progress -> Prop) (p q : Progress) : Prop where
  told : p.Told answers
  told' : q.Told answers
  clean : ¬ Complained q.errors
  memory : L p
  memory' : R q

def OfMemory (L : Progress -> Prop) : Prop :=
  forall p q : Progress, q.aliases = p.aliases -> q.underlying = p.underlying ->
    q.values = p.values -> L p -> L q

theorem ofMemory_true : OfMemory fun _ => True := fun _ _ _ _ _ _ => trivial

end Progress

theorem Complained.of_prefix {errors more : List TypeError} (h : Complained errors)
    (hgrown : errors <+: more) : Complained more := by
  rcases h with ⟨e, he, hhard⟩
  exact ⟨e, hgrown.subset he, hhard⟩

def Tracking.clean (answers : Answers) (L R : Progress -> Prop) : Tracking :=
  ⟨answers, answers, Progress.Clean answers L R, fun p => Complained p.errors, fun _ => False⟩

section Clean

variable {answers : Answers} {L R : Progress -> Prop} {α : Type}

theorem Tracks.of_clean {m n : Resolve α} (hm : Steady Progress.ledger m)
    (h : forall p q, Progress.Clean answers L R p q ->
      Complained (m.outcome answers p).2.errors ∨
        ((m.outcome answers p).1 = (n.outcome answers q).1 ∧
          Progress.Clean answers L R (m.outcome answers p).2 (n.outcome answers q).2)) :
    Tracks (.clean answers L R) m n where
  left p hp := hp.of_prefix (hm answers p).errors
  right _ hlost := hlost
  both p q hpq := (h p q hpq).imp_right Or.inr

theorem Tracks.clean {m n : Resolve α} (h : Tracks (.clean answers L R) m n) {p q : Progress}
    (hpq : Progress.Clean answers L R p q)
    (hclean : ¬ Complained (m.outcome answers p).2.errors) :
    (m.outcome answers p).1 = (n.outcome answers q).1 ∧
      Progress.Clean answers L R (m.outcome answers p).2 (n.outcome answers q).2 := by
  rcases h.both p q hpq with hlost | hlost | hboth
  · exact absurd hlost hclean
  · exact hlost.elim
  · exact hboth

theorem Resolve.outcome_packageAt {p : Progress} (h : p.Told answers) (path : String) :
    exists packages, (packageAt path).outcome answers p =
        ((answers path).toOption, { p with packages := packages }) ∧
      Progress.Told answers { p with packages := packages } := by
  unfold outcome
  cases hknown : p.packages.get? path with
  | some known =>
      rw [run_packageAt_known hknown, h path known hknown]
      exact ⟨p.packages, rfl, h⟩
  | none =>
      rw [run_packageAt_new hknown]
      exact ⟨_, rfl, Table.forall_get?_insert h rfl⟩

theorem Tracking.lawful_clean (answers : Answers) (hL : Progress.OfMemory L)
    (hR : Progress.OfMemory R) : (Tracking.clean answers L R).Lawful where
  left_mono _ _ hgrown hlost := hlost.of_prefix hgrown
  right_mono _ _ _ hlost := hlost
  report file line line' isSoft complaint := by
    refine Tracks.of_clean (Resolve.steady_report file line isSoft complaint) ?_
    intro p q h
    cases isSoft with
    | false => exact Or.inl ⟨_, List.mem_append_right _ List.mem_cons_self, rfl⟩
    | true =>
        refine Or.inr ⟨rfl, h.told, h.told', ?_, hL p _ rfl rfl rfl h.memory,
          hR q _ rfl rfl rfl h.memory'⟩
        rintro ⟨e, he, hhard⟩
        rcases List.mem_append.mp he with hold | hnew
        · exact h.clean ⟨e, hold, hhard⟩
        · cases List.mem_singleton.mp hnew
          cases hhard
  packageAt path := by
    refine Tracks.of_clean (Resolve.steady_packageAt path) ?_
    intro p q h
    rcases Resolve.outcome_packageAt h.told path with ⟨packages, heq, htold⟩
    rcases Resolve.outcome_packageAt h.told' path with ⟨packages', heq', htold'⟩
    rw [heq, heq']
    exact Or.inr ⟨rfl, htold, htold', h.clean, hL p _ rfl rfl rfl h.memory,
      hR q _ rfl rfl rfl h.memory'⟩

end Clean

namespace Resolve

variable {answers : Answers} {α : Type}

def clean? (answers : Answers) (m : Resolve α) : Option α :=
  let r := m.outcome answers Progress.blank
  if r.2.errors.all fun e => e.isSoft then some r.1 else none

theorem not_complained_iff {errors : List TypeError} :
    ¬ Complained errors ↔ (errors.all fun e => e.isSoft) = true := by
  unfold Complained
  simp only [List.all_eq_true]
  constructor
  · intro h e he
    exact eq_true_of_ne_false fun hhard => h ⟨e, he, hhard⟩
  · rintro h ⟨e, he, hhard⟩
    cases hhard.symm.trans (h e he)

theorem clean?_eq_some_iff {m : Resolve α} {a : α} :
    m.clean? answers = some a ↔ (m.outcome answers .blank).1 = a ∧
      ¬ Complained (m.outcome answers .blank).2.errors := by
  unfold clean?
  dsimp only
  rw [not_complained_iff]
  split
  · next hsoft => exact ⟨fun h => ⟨Option.some.inj h, hsoft⟩, fun h => congrArg some h.1⟩
  · next hsoft => exact ⟨fun h => (by cases h), fun h => absurd h.2 hsoft⟩

def given (value : Option α) (missing : α) : Resolve α :=
  match value with
  | some a => return a
  | none => do
      complain "" 0 (.free "no value")
      return missing

theorem steady_given (value : Option α) (missing : α) :
    Steady Progress.ledger (given value missing) := by
  cases value with
  | some a => exact Steady.pure _
  | none => exact (steady_report _ _ _ _).bind fun _ => Steady.pure _

end Resolve

section Recalling

variable {answers : Answers} {L R : Progress -> Prop} {α : Type}

theorem tracks_given_none {n : Resolve α} {missing : α} :
    Tracks (.clean answers L R) (Resolve.given none missing) n := by
  refine Tracks.of_clean (Resolve.steady_given none missing) ?_
  intro p q _
  exact Or.inl ⟨_, List.mem_append_right _ List.mem_cons_self, rfl⟩

theorem tracks_given {value value' : Option α} (missing : α)
    (h : forall a, value = some a -> value' = some a) :
    Tracks (.clean answers L R) (Resolve.given value missing)
      (Resolve.given value' missing) := by
  cases value with
  | none => exact tracks_given_none
  | some a =>
      rw [h a rfl]
      exact Tracks.pure a

theorem Tracks.clean?_eq {m n : Resolve α}
    (h : Tracks (.clean answers (fun _ => True) fun _ => True) m n) {a : α}
    (hm : m.clean? answers = some a) : n.clean? answers = some a := by
  rcases Resolve.clean?_eq_some_iff.mp hm with ⟨hresult, hclean⟩
  have hblank : Progress.Clean answers (fun _ => True) (fun _ => True) .blank .blank :=
    ⟨Progress.told_blank answers, Progress.told_blank answers, Progress.not_complained_blank,
      trivial, trivial⟩
  rcases h.clean hblank hclean with ⟨heq, hend⟩
  exact Resolve.clean?_eq_some_iff.mpr ⟨heq.symm.trans hresult, hend.clean⟩

end Recalling

open Scope (Pending)

namespace Values

/-- What is known of a declaration as links see it: constants go by their numbers. -/
def value? (v : Values) (s : Scope) : (k : Pending) -> Option k.Result
  | .alias name => v.aliased name
  | .type name => v.underlying name
  | .const i =>
      match s.consts[i]? with
      | some d => v.const d.name
      | none => some none

theorem Within.value? {v w : Values} (h : v.Within w) {s : Scope} {k : Pending} {a : k.Result}
    (ha : v.value? s k = some a) : w.value? s k = some a := by
  match k with
  | .alias name => exact h.aliased name a ha
  | .type name => exact h.underlying name a ha
  | .const i =>
      unfold Values.value? at ha ⊢
      dsimp only at ha ⊢
      cases hd : s.consts[i]? with
      | some d =>
          rw [hd] at ha
          exact h.const d.name a ha
      | none =>
          rw [hd] at ha
          exact ha

end Values

namespace Scope

/-!
# Levels
-/

def const? (s : Scope) (name : String) : Option ConstDecl :=
  (s.constIndex? name).bind fun i => s.consts[i]?

theorem const?_of_index {s : Scope} {name : String} {i : Nat} (h : s.constIndex? name = some i) :
    exists d, s.consts[i]? = some d ∧ d.name = name ∧ s.const? name = some d := by
  have hfound := List.findIdx?_eq_some_iff_getElem.mp h
  rcases hfound with ⟨hlength, hname, _⟩
  have hget : s.consts[i]? = some s.consts[i] := List.getElem?_eq_getElem hlength
  refine ⟨s.consts[i], hget, by simpa using hname, ?_⟩
  unfold const?
  rw [h]
  exact hget

theorem constIndex?_of_get {s : Scope} (hnodup : (s.consts.map ConstDecl.name).Nodup) {i : Nat}
    {d : ConstDecl} (hd : s.consts[i]? = some d) : s.constIndex? d.name = some i := by
  rcases List.getElem?_eq_some_iff.mp hd with ⟨hi, rfl⟩
  refine List.findIdx?_eq_some_iff_getElem.mpr ⟨hi, beq_iff_eq.mpr rfl, ?_⟩
  intro j hj hname
  rw [← List.length_map ConstDecl.name] at hi
  have hsame : (s.consts.map ConstDecl.name)[j] = (s.consts.map ConstDecl.name)[i] := by
    rw [List.getElem_map, List.getElem_map]
    exact beq_iff_eq.mp hname
  exact absurd (hnodup.getElem_inj_iff.mp hsame) (Nat.ne_of_lt hj)

theorem const?_of_mem {s : Scope} (hnodup : (s.consts.map ConstDecl.name).Nodup) {d : ConstDecl}
    (hd : d ∈ s.consts) : s.const? d.name = some d := by
  rcases List.mem_iff_getElem?.mp hd with ⟨i, hi⟩
  unfold const?
  rw [constIndex?_of_get hnodup hi]
  exact hi

theorem mem_of_const? {s : Scope} {name : String} {d : ConstDecl} (h : s.const? name = some d) :
    d ∈ s.consts ∧ d.name = name := by
  rcases Option.bind_eq_some_iff.mp h with ⟨i, hi, hd⟩
  rcases const?_of_index hi with ⟨d', hd', hname, _⟩
  cases hd.symm.trans hd'
  exact ⟨List.mem_of_getElem? hd, hname⟩

def Named (s : Scope) : Pending -> Prop
  | .const i => exists name, s.constIndex? name = some i
  | _ => True

def assume (s : Scope) (v : Values) : Links where
  aliased name := Resolve.given (v.aliased name) .invalid
  underlying name := Resolve.given (v.underlying name) .invalid
  const i :=
    match s.consts[i]? with
    | some d => Resolve.given (v.const d.name) none
    | none => return none

theorem assume_const {s : Scope} {name : String} {i : Nat} (h : s.constIndex? name = some i)
    (v : Values) : (s.assume v).const i = Resolve.given (v.const name) none := by
  rcases const?_of_index h with ⟨d, hd, hname, _⟩
  unfold assume
  dsimp only
  rw [hd, ← hname]

theorem follow_assume (s : Scope) (v : Values) (k : Pending) :
    (s.assume v).follow k = Resolve.given (v.value? s k) k.nothing := by
  match k with
  | .alias _ | .type _ => rfl
  | .const i =>
      unfold Links.follow assume Values.value?
      dsimp only
      cases s.consts[i]? with
      | some d => rfl
      | none => rfl

theorem value?_const {s : Scope} {name : String} {i : Nat} (h : s.constIndex? name = some i)
    (v : Values) : v.value? s (.const i) = v.const name := by
  rcases const?_of_index h with ⟨d, hd, hname, _⟩
  unfold Values.value?
  dsimp only
  rw [hd, ← hname]

theorem trackedLinks_iff {T : Tracking} {s : Scope} {links links' : Links} :
    TrackedLinks T s s links links' ↔
      forall k, s.Named k -> Tracks T (links.follow k) (links'.follow k) := by
  constructor
  · intro h k hk
    match k, hk with
    | .alias name, _ => exact h.aliased name
    | .type name, _ => exact h.underlying name
    | .const i, ⟨name, hi⟩ => exact h.const name i i hi hi
  · intro h
    constructor
    · exact fun name => h (.alias name) trivial
    · exact fun name => h (.type name) trivial
    · intro name i j hi hj
      cases hi.symm.trans hj
      exact h (.const i) ⟨name, hi⟩

/-- The values that bodies have when names stand for given values.  A name without a
declaration stands for nothing. -/
def refine (s : Scope) (answers : Answers) (v : Values) : Values where
  aliased name :=
    match s.types.get? name with
    | some d => (s.aliasBody (s.assume v) d).clean? answers
    | none => some .invalid
  underlying name :=
    match s.types.get? name with
    | some d => (s.typeBody (s.assume v) d).clean? answers
    | none => some .invalid
  const name :=
    match s.const? name with
    | some d => (s.constBody (s.assume v) d).clean? answers
    | none => some none

theorem value?_refine {s : Scope} {k : Pending} (hk : s.Named k) (answers : Answers) (v : Values) :
    (s.refine answers v).value? s k =
      match s.saying? k with
      | some d => (d.body (s.assume v)).clean? answers
      | none => some k.nothing := by
  match k, hk with
  | .alias name, _ | .type name, _ =>
      unfold Values.value? refine saying?
      dsimp only
      cases s.types.get? name with
      | some d => rfl
      | none => rfl
  | .const i, ⟨name, hi⟩ =>
      rcases const?_of_index hi with ⟨d, hget, _, hconst⟩
      rw [value?_const hi]
      simp only [refine, saying?, hget, hconst, Option.map_some]

def found (s : Scope) (answers : Answers) : Nat -> Values
  | 0 => .nothing
  | level + 1 => s.refine answers (s.found answers level)

section Levels

variable {sc other : Scope} {answers : Answers} {L R : Progress -> Prop} {v w : Values}

theorem tracks_assume (sc other : Scope) (h : v.Within w) :
    TrackedLinks (.clean answers L R) sc other (sc.assume v) (other.assume w) where
  aliased name := tracks_given _ (h.aliased name)
  underlying name := tracks_given _ (h.underlying name)
  const name i j hi hj := by
    rw [assume_const hi, assume_const hj]
    exact tracks_given _ (h.const name)

theorem tracks_saying {T : Tracking} (hT : T.Lawful) {links links' : Links}
    (hlinks : TrackedLinks T sc sc links links') {k : Pending} {d : Saying k.Result}
    (hd : sc.saying? k = some d) : Tracks T (d.body links) (d.body links') := by
  match k with
  | .alias name =>
      rcases Option.map_eq_some_iff.mp hd with ⟨decl, _, rfl⟩
      exact tracks_aliasBody_same hT hlinks decl
  | .type name =>
      rcases Option.map_eq_some_iff.mp hd with ⟨decl, _, rfl⟩
      exact tracks_typeBody_same hT hlinks decl
  | .const i =>
      rcases Option.map_eq_some_iff.mp hd with ⟨decl, _, rfl⟩
      exact tracks_constBody_same hT hlinks decl

theorem refine_within (h : v.Within w) : (sc.refine answers v).Within (sc.refine answers w) := by
  have hT := Tracking.lawful_clean answers Progress.ofMemory_true Progress.ofMemory_true
  have hlinks : TrackedLinks (.clean answers (fun _ => True) fun _ => True) sc sc (sc.assume v)
      (sc.assume w) := tracks_assume sc sc h
  have hnamed : forall k, sc.Named k -> forall a, (sc.refine answers v).value? sc k = some a ->
      (sc.refine answers w).value? sc k = some a := by
    intro k hk a ha
    rw [value?_refine hk] at ha ⊢
    cases hd : sc.saying? k with
    | none =>
        rw [hd] at ha
        exact ha
    | some d =>
        rw [hd] at ha
        exact (tracks_saying hT hlinks hd).clean?_eq ha
  constructor
  · exact fun name => hnamed (.alias name) trivial
  · exact fun name => hnamed (.type name) trivial
  · intro name value hvalue
    cases hi : sc.constIndex? name with
    | some i =>
        rw [← value?_const hi] at hvalue ⊢
        exact hnamed (.const i) ⟨name, hi⟩ value hvalue
    | none =>
        have hnone : sc.const? name = none := congrArg (·.bind fun i => sc.consts[i]?) hi
        simp only [refine, hnone] at hvalue ⊢
        exact hvalue

theorem found_within_succ (sc : Scope) (answers : Answers) (level : Nat) :
    (sc.found answers level).Within (sc.found answers (level + 1)) := by
  induction level with
  | zero => exact Values.nothing_within _
  | succ level ih => exact refine_within ih

theorem found_within (sc : Scope) (answers : Answers) {level more : Nat} (h : level ≤ more) :
    (sc.found answers level).Within (sc.found answers more) := by
  induction h with
  | refl => exact Values.Within.refl _
  | step _ ih => exact ih.trans (found_within_succ sc answers _)

/-- What grows with the level stops growing at finitely many names. -/
theorem exists_level {β : Type} {g : Nat -> String -> Option β}
    (hgrows : forall level more name b, level ≤ more -> g level name = some b ->
      g more name = some b) (names : List String) :
    exists top, forall name, name ∈ names -> forall level b, g level name = some b ->
      g top name = some b := by
  induction names with
  | nil => exact ⟨0, fun _ h => absurd h List.not_mem_nil⟩
  | cons first rest ih =>
      rcases ih with ⟨top, htop⟩
      by_cases hfirst : exists level b, g level first = some b
      · rcases hfirst with ⟨level, b, hb⟩
        refine ⟨max level top, ?_⟩
        intro name hname other c hc
        rcases List.mem_cons.mp hname with rfl | hmem
        · -- Two values of one name are values at the higher of their levels.
          have hsame := hgrows other (max level other) name c (Nat.le_max_right _ _) hc
          have hb' := hgrows level (max level other) name b (Nat.le_max_left _ _) hb
          cases hb'.symm.trans hsame
          exact hgrows level _ name b (Nat.le_max_left _ _) hb
        · exact hgrows top _ name c (Nat.le_max_right _ _) (htop name hmem other c hc)
      · refine ⟨top, ?_⟩
        intro name hname other c hc
        rcases List.mem_cons.mp hname with rfl | hmem
        · exact absurd ⟨other, c, hc⟩ hfirst
        · exact htop name hmem other c hc

/-- Names without a declaration have their values at the first level already. -/
theorem exists_last_level {β : Type} {g : Nat -> String -> Option β}
    (hgrows : forall level more name b, level ≤ more -> g level name = some b ->
      g more name = some b) (names : List String)
    (hrest : forall name, name ∉ names -> forall level b, g level name = some b ->
      g 1 name = some b) :
    exists top, forall more, top ≤ more -> forall level name b, g level name = some b ->
      g more name = some b := by
  rcases exists_level hgrows names with ⟨top, htop⟩
  refine ⟨top + 1, fun more hmore level name b hb => ?_⟩
  by_cases hname : name ∈ names
  · exact hgrows top more name b (by omega) (htop name hname level b hb)
  · exact hgrows 1 more name b (by omega) (hrest name hname level b hb)

theorem exists_top (sc : Scope) (answers : Answers) :
    exists top, forall level, (sc.found answers level).Within (sc.found answers top) := by
  have hdeclared : forall name, name ∉ sc.types.keys -> sc.types.get? name = none :=
    fun name hname => Option.eq_none_iff_forall_ne_some.mpr fun d hd =>
      hname (Table.mem_keys_iff.mpr ⟨d, hd⟩)
  have hconst : forall name, name ∉ sc.consts.map ConstDecl.name -> sc.const? name = none := by
    refine fun name hname => Option.eq_none_iff_forall_ne_some.mpr fun d hd => hname ?_
    rcases mem_of_const? hd with ⟨hmem, rfl⟩
    exact List.mem_map_of_mem hmem
  rcases exists_last_level (g := fun level => (sc.found answers level).aliased)
    (fun _ _ name b hle => (found_within sc answers hle).aliased name b) sc.types.keys (by
      rintro name hname (_ | level) type htype
      · cases htype
      · simp only [found, refine, hdeclared name hname] at htype ⊢
        exact htype) with ⟨a, ha⟩
  rcases exists_last_level (g := fun level => (sc.found answers level).underlying)
    (fun _ _ name b hle => (found_within sc answers hle).underlying name b) sc.types.keys (by
      rintro name hname (_ | level) type htype
      · cases htype
      · simp only [found, refine, hdeclared name hname] at htype ⊢
        exact htype) with ⟨b, hb⟩
  rcases exists_last_level (g := fun level => (sc.found answers level).const)
    (fun _ _ name b hle => (found_within sc answers hle).const name b)
    (sc.consts.map ConstDecl.name) (by
      rintro name hname (_ | level) value hvalue
      · cases hvalue
      · simp only [found, refine, hconst name hname] at hvalue ⊢
        exact hvalue) with ⟨c, hc⟩
  exact ⟨a + b + c, fun level =>
    ⟨ha _ (by omega) level, hb _ (by omega) level, hc _ (by omega) level⟩⟩

end Levels

end Scope
end GoAtlas
