import GoAtlas.Proofs.Session.Flattening
import GoAtlas.Proofs.Session.Promotion

/-!
# Depths of embedding

The types that a declared type embeds, directly or through others, stand at depths: each at the
least number of embedded types inside one another that lead to its name.  Promotion goes through
the depths one after another, so a method comes from the least depth at which some type has it.
If several types of that depth have it, then the one that is come to first counts, and the order
of embedded fields decides.
-/

namespace GoAtlas
namespace Session

variable {s : Session} {r : Reached}

/-!
# Depths
-/

/-- A number of embedded types inside one another leads to the type. -/
inductive Comes (s : Session) (r : Reached) : Nat -> Reached -> Prop where
  | here : Comes s r 0 r
  | step {depth : Nat} {q p : Reached} (h : Comes s r depth q) (hp : p ∈ (s.oneLevel q).2) :
      Comes s r (depth + 1) p

/-- The name of the type is come to at this depth and at no lesser one. -/
structure At (s : Session) (r : Reached) (depth : Nat) (q : Reached) : Prop where
  comes : s.Comes r depth q
  least : forall lesser p, lesser < depth -> s.Comes r lesser p -> p.name.full ≠ q.name.full

/-- Names that are come to are the same if they are written alike. -/
def Distinct (s : Session) (r : Reached) : Prop :=
  forall depth depth' q p, s.Comes r depth q -> s.Comes r depth' p ->
    q.name.full = p.name.full -> q.name = p.name

theorem mem_oneLevel_of_name {q p a : Reached} (hname : q.name = p.name)
    (ha : a ∈ (s.oneLevel q).2) : exists b, b ∈ (s.oneLevel p).2 ∧ b.name = a.name := by
  have hraised : q.raised = p.raised := by
    unfold Reached.raised
    rw [hname]
  have hmem : a.raised ∈ (s.oneLevel q.raised).2 := by
    rw [oneLevel_raised]
    exact List.mem_map_of_mem ha
  rw [hraised, oneLevel_raised] at hmem
  obtain ⟨b, hb, hba⟩ := List.mem_map.mp hmem
  have hsame : b.raised.name = a.raised.name := by rw [hba]
  exact ⟨b, hb, hsame⟩

theorem At.above (hdistinct : s.Distinct r) {depth : Nat} {p : Reached}
    (h : s.At r (depth + 1) p) : exists q, s.At r depth q ∧ p ∈ (s.oneLevel q).2 := by
  cases hcomes : h.comes with
  | @step _ q _ hq hp =>
      refine ⟨q, ⟨hq, ?_⟩, hp⟩
      intro lesser other hlesser hother hfull
      obtain ⟨b, hb, hname⟩ :=
        mem_oneLevel_of_name (hdistinct _ _ other q hother hq hfull).symm hp
      exact h.least (lesser + 1) b (Nat.succ_lt_succ hlesser) (Comes.step hother hb)
        (congrArg TypeName.full hname)

theorem At.between (hdistinct : s.Distinct r) {depth more : Nat} {p : Reached}
    (h : s.At r (depth + more + 1) p) : exists q, s.At r depth q ∧ (s.oneLevel q).2 ≠ [] := by
  induction more generalizing p with
  | zero =>
      obtain ⟨q, hq, hp⟩ := h.above hdistinct
      exact ⟨q, hq, List.ne_nil_of_mem hp⟩
  | succ more ih =>
      obtain ⟨q, hq, _⟩ := h.above hdistinct
      exact ih hq

/-!
# Levels
-/

theorem mem_of_mem_newcomers {here : List Reached} {seen : Visited} {q : Reached}
    (h : q ∈ newcomers here seen) : q ∈ here ∧ q.name.full ∉ seen := by
  induction here generalizing seen with
  | nil => cases h
  | cons p rest ih =>
      unfold newcomers at h
      split at h
      · exact ⟨List.mem_cons_of_mem _ (ih h).1, (ih h).2⟩
      · next hnew =>
          rcases List.mem_cons.mp h with rfl | hrest
          · exact ⟨List.mem_cons_self, by simpa using hnew⟩
          · obtain ⟨hmem, hunseen⟩ := ih hrest
            exact ⟨List.mem_cons_of_mem _ hmem, fun hseen => hunseen (List.mem_cons_of_mem _ hseen)⟩

theorem exists_newcomer {here : List Reached} {seen : Visited} {q : Reached} (hq : q ∈ here)
    (hunseen : q.name.full ∉ seen) :
    exists p, p ∈ newcomers here seen ∧ p.name.full = q.name.full := by
  induction here generalizing seen with
  | nil => cases hq
  | cons first rest ih =>
      unfold newcomers
      rcases List.mem_cons.mp hq with rfl | hrest
      · have hnew : ¬ seen.contains q.name.full = true := by simpa using hunseen
        rw [if_neg hnew]
        exact ⟨q, List.mem_cons_self, rfl⟩
      · split
        · exact ih hrest hunseen
        · by_cases hfirst : first.name.full = q.name.full
          · exact ⟨first, List.mem_cons_self, hfirst⟩
          · have hrestunseen : q.name.full ∉ first.name.full :: seen :=
              List.not_mem_cons_of_ne_of_not_mem (Ne.symm hfirst) hunseen
            obtain ⟨p, hp, hfull⟩ := ih hrest hrestunseen
            exact ⟨p, List.mem_cons_of_mem _ hp, hfull⟩

theorem deeper_wholeLevel (s : Session) (here : List Reached) (seen : Visited) :
    (s.wholeLevel here seen).2.1 = (newcomers here seen).flatMap fun q => (s.oneLevel q).2 := by
  induction here generalizing seen with
  | nil => rfl
  | cons q rest ih =>
      unfold wholeLevel newcomers
      split
      · exact ih seen
      · rw [List.flatMap_cons, ← ih]

theorem mem_seen_wholeLevel (s : Session) (here : List Reached) (seen : Visited) {full : String} :
    full ∈ (s.wholeLevel here seen).2.2 ↔
      full ∈ seen ∨ exists q, q ∈ here ∧ q.name.full = full := by
  induction here generalizing seen with
  | nil => simp [wholeLevel]
  | cons q rest ih =>
      unfold wholeLevel
      split
      · next hseen =>
          have hmem : q.name.full ∈ seen := by simpa using hseen
          rw [ih]
          constructor
          · rintro (hold | ⟨p, hp, hfull⟩)
            · exact Or.inl hold
            · exact Or.inr ⟨p, List.mem_cons_of_mem _ hp, hfull⟩
          · rintro (hold | ⟨p, hp, hfull⟩)
            · exact Or.inl hold
            · rcases List.mem_cons.mp hp with rfl | hrest
              · exact Or.inl (hfull ▸ hmem)
              · exact Or.inr ⟨p, hrest, hfull⟩
      · refine (ih (q.name.full :: seen)).trans ?_
        rw [List.mem_cons]
        constructor
        · rintro ((hfull | hold) | ⟨p, hp, hfull⟩)
          · exact Or.inr ⟨q, List.mem_cons_self, hfull.symm⟩
          · exact Or.inl hold
          · exact Or.inr ⟨p, List.mem_cons_of_mem _ hp, hfull⟩
        · rintro (hold | ⟨p, hp, hfull⟩)
          · exact Or.inl (Or.inr hold)
          · rcases List.mem_cons.mp hp with rfl | hrest
            · exact Or.inl (Or.inl hfull.symm)
            · exact Or.inr ⟨p, hrest, hfull⟩

/-- Before promotion looks at a depth, it has the types of that depth at hand and has seen
exactly what comes at lesser ones. -/
structure Frontier (s : Session) (r : Reached) (depth : Nat) (here : List Reached)
    (seen : Visited) : Prop where
  comes : forall q, q ∈ here -> s.Comes r depth q
  whole : forall q, s.At r depth q -> exists p, p ∈ here ∧ p.name.full = q.name.full
  seen : forall full, full ∈ seen ↔
    exists lesser q, lesser < depth ∧ s.Comes r lesser q ∧ q.name.full = full

theorem frontier_start (s : Session) (r : Reached) : s.Frontier r 0 [r] [] where
  comes q hq := by
    rw [List.mem_singleton.mp hq]
    exact Comes.here
  whole q hq := by
    cases hq.comes
    exact ⟨r, List.mem_singleton_self r, rfl⟩
  seen full := by
    constructor
    · intro h
      cases h
    · rintro ⟨lesser, _, hlesser, _⟩
      exact absurd hlesser (Nat.not_lt_zero lesser)

variable {depth : Nat} {here : List Reached} {seen : Visited}

theorem Frontier.at_newcomer (h : s.Frontier r depth here seen) {q : Reached}
    (hq : q ∈ newcomers here seen) : s.At r depth q := by
  obtain ⟨hmem, hunseen⟩ := mem_of_mem_newcomers hq
  refine ⟨h.comes q hmem, ?_⟩
  intro lesser p hlesser hp hfull
  exact hunseen ((h.seen q.name.full).mpr ⟨lesser, p, hlesser, hp, hfull⟩)

theorem Frontier.newcomer_of_at (h : s.Frontier r depth here seen) {q : Reached}
    (hq : s.At r depth q) : exists p, p ∈ newcomers here seen ∧ p.name.full = q.name.full := by
  obtain ⟨p, hp, hfull⟩ := h.whole q hq
  have hunseen : p.name.full ∉ seen := by
    intro hmem
    obtain ⟨lesser, other, hlesser, hother, heq⟩ := (h.seen _).mp hmem
    exact hq.least lesser other hlesser hother (heq.trans hfull)
  obtain ⟨first, hfirst, hsame⟩ := exists_newcomer hp hunseen
  exact ⟨first, hfirst, hsame.trans hfull⟩

theorem Frontier.next (hdistinct : s.Distinct r) (h : s.Frontier r depth here seen) :
    s.Frontier r (depth + 1) (s.wholeLevel here seen).2.1 (s.wholeLevel here seen).2.2 where
  comes p hp := by
    rw [deeper_wholeLevel] at hp
    obtain ⟨q, hq, hmem⟩ := List.mem_flatMap.mp hp
    exact Comes.step (h.at_newcomer hq).comes hmem
  whole p hp := by
    obtain ⟨q, hq, hmem⟩ := hp.above hdistinct
    obtain ⟨first, hfirst, hfull⟩ := h.newcomer_of_at hq
    have hname := hdistinct _ _ first q (h.at_newcomer hfirst).comes hq.comes hfull
    obtain ⟨b, hb, hbp⟩ := mem_oneLevel_of_name hname.symm hmem
    rw [deeper_wholeLevel]
    exact ⟨b, List.mem_flatMap.mpr ⟨first, hfirst, hb⟩, congrArg TypeName.full hbp⟩
  seen full := by
    rw [mem_seen_wholeLevel, h.seen]
    constructor
    · rintro (⟨lesser, q, hlesser, hq, hfull⟩ | ⟨q, hq, hfull⟩)
      · exact ⟨lesser, q, Nat.lt_succ_of_lt hlesser, hq, hfull⟩
      · exact ⟨depth, q, Nat.lt_succ_self depth, h.comes q hq, hfull⟩
    · rintro ⟨lesser, q, hlesser, hq, hfull⟩
      by_cases hseen : exists lesser q, lesser < depth ∧ s.Comes r lesser q ∧ q.name.full = full
      · exact Or.inl hseen
      · -- What comes at this depth and not before stands at this depth.
        have hdepth : lesser = depth := by
          apply Nat.eq_of_lt_succ_of_not_lt hlesser
          exact fun hless => hseen ⟨lesser, q, hless, hq, hfull⟩
        subst hdepth
        have hat : s.At r lesser q :=
          ⟨hq, fun l p hl hp heq => hseen ⟨l, p, hl, hp, heq.trans hfull⟩⟩
        obtain ⟨p, hp, hsame⟩ := h.whole q hat
        exact Or.inr ⟨p, hp, hsame.trans hfull⟩

theorem mem_definedNames_of_oneLevel {q : Reached} (h : (s.oneLevel q).2 ≠ []) :
    q.name.full ∈ s.definedNames := by
  cases hd : s.typeDef? q.name with
  | none =>
      unfold oneLevel at h
      rw [hd] at h
      exact absurd rfl h
  | some d =>
      cases hname : q.name with
      | builtin word =>
          rw [hname] at hd
          unfold oneLevel at h
          rw [hname, hd, typeDef_of_builtin hd] at h
          exact absurd rfl h
      | declared package name =>
          rw [hname] at hd
          exact full_mem_definedNames hd

/-- Above a deeper type there is a definition that was not seen before. -/
theorem Frontier.unvisited_lt (hdistinct : s.Distinct r) (h : s.Frontier r depth here seen)
    {more : Nat} {p : Reached} (hp : s.At r (depth + more + 1) p) :
    unvisited s.definedNames.toFinset (s.wholeLevel here seen).2.2 <
      unvisited s.definedNames.toFinset seen := by
  obtain ⟨q, hq, hinner⟩ := hp.between hdistinct
  obtain ⟨first, hfirst, hfull⟩ := h.newcomer_of_at hq
  obtain ⟨hmem, hunseen⟩ := mem_of_mem_newcomers hfirst
  have hname := hdistinct _ _ first q (h.at_newcomer hfirst).comes hq.comes hfull
  obtain ⟨a, ha⟩ := List.exists_mem_of_ne_nil _ hinner
  obtain ⟨b, hb, _⟩ := mem_oneLevel_of_name hname.symm ha
  have hgrows : seen ⊆ (s.wholeLevel here seen).2.2 :=
    fun full hfull => (s.mem_seen_wholeLevel here seen).mpr (Or.inl hfull)
  exact Session.unvisited_lt hgrows
    (List.mem_toFinset.mpr (mem_definedNames_of_oneLevel (List.ne_nil_of_mem hb))) hunseen
    ((s.mem_seen_wholeLevel here seen).mpr (Or.inr ⟨first, hmem, rfl⟩))

/-!
# The way in order
-/

theorem visits_succ (s : Session) (levels : Nat) (here : List Reached) (seen : Visited) :
    s.visits (levels + 1) here seen = newcomers here seen ++
      s.visits levels (s.wholeLevel here seen).2.1 (s.wholeLevel here seen).2.2 := rfl

theorem Frontier.at_visit (hdistinct : s.Distinct r) (h : s.Frontier r depth here seen)
    {levels : Nat} {q : Reached} (hq : q ∈ s.visits levels here seen) :
    exists deeper, s.At r deeper q := by
  induction levels generalizing depth here seen with
  | zero => cases hq
  | succ levels ih =>
      rw [visits_succ] at hq
      rcases List.mem_append.mp hq with hnew | hdeeper
      · exact ⟨depth, h.at_newcomer hnew⟩
      · exact ih (h.next hdistinct) hdeeper

theorem Frontier.exists_visit (hdistinct : s.Distinct r) (h : s.Frontier r depth here seen)
    {levels : Nat} (hlevels : unvisited s.definedNames.toFinset seen < levels) {more : Nat}
    {q : Reached} (hq : s.At r (depth + more) q) :
    exists p, p ∈ s.visits levels here seen ∧ s.At r (depth + more) p ∧
      p.name.full = q.name.full := by
  induction levels generalizing depth here seen more with
  | zero => omega
  | succ levels ih =>
      rw [visits_succ]
      cases more with
      | zero =>
          obtain ⟨p, hp, hfull⟩ := h.newcomer_of_at hq
          exact ⟨p, List.mem_append_left _ hp, h.at_newcomer hp, hfull⟩
      | succ more =>
          have hless := h.unvisited_lt hdistinct hq
          have hnext : depth + 1 + more = depth + (more + 1) := by omega
          rw [← hnext] at hq ⊢
          obtain ⟨p, hp, hfound⟩ := ih (h.next hdistinct)
            (Nat.lt_of_lt_of_le hless (Nat.le_of_lt_succ hlevels)) hq
          exact ⟨p, List.mem_append_right _ hp, hfound⟩

/-!
# Selection
-/

def Offers (s : Session) (r : Reached) (method : String) (depth : Nat)
    (signature : Signature GoType) : Prop :=
  exists q, s.At r depth q ∧ s.own? method q = some signature

def Shallow (s : Session) (r : Reached) (method : String) (depth : Nat) : Prop :=
  forall lesser q, lesser < depth -> s.At r lesser q -> s.own? method q = none

/-- At the least depth at which some type has the method, two types have it with different
signatures, or one type is come to in two forms, by value and through a pointer, that differ on
it. -/
def Contested (s : Session) (r : Reached) (method : String) : Prop :=
  exists depth one other, s.At r depth one ∧ s.At r depth other ∧ s.Shallow r method depth ∧
    s.own? method one ≠ s.own? method other ∧ (one.name.full = other.name.full ∨
      (s.own? method one).isSome = true ∧ (s.own? method other).isSome = true)

variable {method : String} {signature : Signature GoType}

theorem own?_of_not_contested (h : ¬ s.Contested r method) (hshallow : s.Shallow r method depth)
    {one other : Reached} (hone : s.At r depth one) (hother : s.At r depth other)
    (hrival : one.name.full = other.name.full ∨
      (s.own? method one).isSome = true ∧ (s.own? method other).isSome = true) :
    s.own? method one = s.own? method other := by
  by_contra hne
  exact h ⟨depth, one, other, hone, hother, hshallow, hne, hrival⟩

theorem exists_shallow {deeper : Nat} (h : s.Offers r method deeper signature) :
    exists depth other, s.Offers r method depth other ∧ s.Shallow r method depth := by
  induction deeper using Nat.strongRecOn generalizing signature with
  | ind deeper ih =>
      by_cases hlesser : exists lesser other, lesser < deeper ∧ s.Offers r method lesser other
      · obtain ⟨lesser, other, hless, hoffers⟩ := hlesser
        exact ih lesser hless hoffers
      · refine ⟨deeper, signature, h, ?_⟩
        intro lesser q hless hq
        cases hown : s.own? method q with
        | none => rfl
        | some other => exact absurd ⟨lesser, other, hless, q, hq, hown⟩ hlesser

/-- A method that is not contested is come to with the signature that it has at the least
depth. -/
theorem Frontier.findSome?_visits (hdistinct : s.Distinct r)
    (h : s.Frontier r depth here seen) {levels : Nat}
    (hlevels : unvisited s.definedNames.toFinset seen < levels) {more : Nat}
    (hcontested : ¬ s.Contested r method) (hshallow : s.Shallow r method (depth + more))
    (hoffers : s.Offers r method (depth + more) signature) :
    (s.visits levels here seen).findSome? (s.own? method) = some signature := by
  obtain ⟨q, hq, hown⟩ := hoffers
  induction levels generalizing depth here seen more with
  | zero => omega
  | succ levels ih =>
      rw [visits_succ, List.findSome?_append]
      cases more with
      | zero =>
          have hsame : forall p, p ∈ newcomers here seen ->
              (s.own? method p).isSome = true -> s.own? method p = some signature := by
            intro p hp hsome
            have hrival : (s.own? method p).isSome = true ∧ (s.own? method q).isSome = true :=
              ⟨hsome, by rw [hown]; rfl⟩
            exact (own?_of_not_contested hcontested hshallow (h.at_newcomer hp) hq
              (Or.inr hrival)).trans hown
          obtain ⟨p, hp, hfull⟩ := h.newcomer_of_at hq
          have hfirst : s.own? method p = some signature :=
            (own?_of_not_contested hcontested hshallow (h.at_newcomer hp) hq
              (Or.inl hfull)).trans hown
          have hsome : ((newcomers here seen).findSome? (s.own? method)).isSome = true :=
            List.findSome?_isSome_iff.mpr ⟨p, hp, by rw [hfirst]; rfl⟩
          obtain ⟨found, hfound⟩ := Option.isSome_iff_exists.mp hsome
          obtain ⟨other, hother, hownOther⟩ := List.exists_of_findSome?_eq_some hfound
          rw [hfound, Option.some_or, ← hownOther]
          exact hsame other hother (by rw [hownOther]; rfl)
      | succ more =>
          have hnone : (newcomers here seen).findSome? (s.own? method) = none := by
            rw [List.findSome?_eq_none_iff]
            exact fun p hp => hshallow depth p (by omega) (h.at_newcomer hp)
          have hless := h.unvisited_lt hdistinct hq
          have hnext : depth + 1 + more = depth + (more + 1) := by omega
          rw [← hnext] at hq hshallow
          rw [hnone, Option.none_or]
          exact ih (h.next hdistinct) (Nat.lt_of_lt_of_le hless (Nat.le_of_lt_succ hlevels))
            hshallow hq

theorem unvisited_lt_levels (s : Session) :
    unvisited s.definedNames.toFinset [] < s.known.length + 3 :=
  Nat.lt_of_le_of_lt (s.unvisited_definedNames_le []) (by omega)

theorem offers_of_promoted (hdistinct : s.Distinct r)
    (h : (s.promotedMethods [r]).get? method = some signature) :
    exists depth, s.Offers r method depth signature := by
  rw [get?_promotedMethods] at h
  obtain ⟨q, hq, hown⟩ := List.exists_of_findSome?_eq_some h
  obtain ⟨depth, hat⟩ := (s.frontier_start r).at_visit hdistinct hq
  exact ⟨depth, q, hat, hown⟩

theorem get?_promotedMethods_iff (hdistinct : s.Distinct r)
    (hcontested : ¬ s.Contested r method) :
    (s.promotedMethods [r]).get? method = some signature ↔
      exists depth, s.Offers r method depth signature ∧ s.Shallow r method depth := by
  have hfound : forall {depth : Nat} {other : Signature GoType}, s.Offers r method depth other ->
      s.Shallow r method depth -> (s.promotedMethods [r]).get? method = some other := by
    intro depth other hoffers hshallow
    rw [get?_promotedMethods]
    rw [← Nat.zero_add depth] at hoffers hshallow
    exact (s.frontier_start r).findSome?_visits hdistinct s.unvisited_lt_levels hcontested
      hshallow hoffers
  constructor
  · intro h
    obtain ⟨_, hoffers⟩ := offers_of_promoted hdistinct h
    obtain ⟨depth, other, hfirst, hshallow⟩ := exists_shallow hoffers
    cases h.symm.trans (hfound hfirst hshallow)
    exact ⟨depth, hfirst, hshallow⟩
  · rintro ⟨depth, hoffers, hshallow⟩
    exact hfound hoffers hshallow

/-- A method that some type has in all forms in which it is come to is promoted, whether or not
another type has it as well. -/
theorem contains_promotedMethods (hdistinct : s.Distinct r) {q : Reached} (hq : s.At r depth q)
    (hown : forall p, s.At r depth p -> p.name.full = q.name.full ->
      (s.own? method p).isSome = true) : (s.promotedMethods [r]).contains method = true := by
  rw [← Nat.zero_add depth] at hq hown
  obtain ⟨p, hp, hat, hfull⟩ :=
    (s.frontier_start r).exists_visit hdistinct s.unvisited_lt_levels hq
  unfold Table.contains
  rw [get?_promotedMethods]
  exact List.findSome?_isSome_iff.mpr ⟨p, hp, hown p hat hfull⟩

end Session
end GoAtlas
