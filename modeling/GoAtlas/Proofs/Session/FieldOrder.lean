import GoAtlas.Proofs.Session.Depths

/-!
# The order of embedded fields

Promotion takes a method from the least depth at which some type has it.  Unless types of that
depth contest the method, its signature is settled by the depths alone and is the same in whatever
order structs write their fields.  A contested method is not left out: it is taken from the type
that comes first.
-/

namespace GoAtlas

/-!
# Structs in another order
-/

def GoType.Refielded (type other : GoType) : Prop :=
  type = other ∨ exists fields fields', type = .struct fields ∧ other = .struct fields' ∧
    fields.Perm fields'

structure TypeDef.Refielded (d e : TypeDef) : Prop where
  isAlias : d.isAlias = e.isAlias
  methods : d.methods = e.methods
  underlying : d.underlying.Refielded e.underlying

theorem GoType.Refielded.layers {type other : GoType} (h : type.Refielded other) :
    type.layers = other.layers := by
  rcases h with rfl | ⟨fields, fields', rfl, rfl, _⟩
  · rfl
  · rfl

namespace Session

/-- The sessions know the same definitions, with the fields of structs in another order. -/
structure Refielded (s t : Session) : Prop where
  definitions : forall name, Option.Rel TypeDef.Refielded (s.typeDef? name) (t.typeDef? name)
  known : List.Forall₂ TypeDef.Refielded s.known t.known

variable {s t : Session}

theorem Refielded.cases (h : s.Refielded t) (name : TypeName) :
    (s.typeDef? name = none ∧ t.typeDef? name = none) ∨
      exists d e, s.typeDef? name = some d ∧ t.typeDef? name = some e ∧ d.Refielded e := by
  have hname := h.definitions name
  generalize s.typeDef? name = old at hname ⊢
  generalize t.typeDef? name = new at hname ⊢
  cases hname with
  | none => exact Or.inl ⟨rfl, rfl⟩
  | some hrel => exact Or.inr ⟨_, _, rfl, rfl, hrel⟩

theorem Refielded.unaliasWithin (h : s.Refielded t) (steps : Nat) {type other : GoType}
    (htype : type.Refielded other) :
    (s.unaliasWithin steps type).Refielded (t.unaliasWithin steps other) := by
  induction steps generalizing type other with
  | zero => exact htype
  | succ steps ih =>
      rcases htype with rfl | ⟨fields, fields', rfl, rfl, hperm⟩
      · cases type with
        | named name =>
            unfold Session.unaliasWithin
            have hfound : forall u : Session, (GoType.named name).name?.bind u.typeDef? =
                u.typeDef? name := fun _ => rfl
            rw [hfound, hfound]
            rcases h.cases name with ⟨hs, ht⟩ | ⟨d, e, hs, ht, hrel⟩
            · rw [hs, ht]
              exact Or.inl rfl
            · rw [hs, ht]
              dsimp only
              rw [hrel.isAlias]
              split
              · exact ih hrel.underlying
              · exact Or.inl rfl
        | _ => exact Or.inl rfl
      · exact Or.inr ⟨fields, fields', rfl, rfl, hperm⟩

/-!
# Interfaces
-/

theorem Refielded.interfaceOf? (h : s.Refielded t) (name : TypeName) :
    s.interfaceOf? name = t.interfaceOf? name := by
  unfold Session.interfaceOf?
  rcases h.cases name with ⟨hs, ht⟩ | ⟨d, e, hs, ht, hrel⟩
  · rw [hs, ht]
  · rw [hs, ht]
    dsimp only
    rcases hrel.underlying with heq | ⟨fields, fields', hd, he, _⟩
    · rw [heq]
    · rw [hd, he]

theorem Refielded.interfaceWithin (h : s.Refielded t) (depth : Nat) :
    s.interfaceWithin depth = t.interfaceWithin depth := by
  induction depth with
  | zero => rfl
  | succ depth ih =>
      funext type visited
      unfold Session.interfaceWithin
      have hunalias : (s.unalias type).Refielded (t.unalias type) :=
        h.unaliasWithin aliasLimit (Or.inl rfl)
      rcases hunalias with heq | ⟨fields, fields', hs, ht, _⟩
      · simp only [heq, ih, h.interfaceOf?]
      · rw [hs, ht]

theorem Refielded.interfaceBound (h : s.Refielded t) (type : GoType) :
    s.interfaceBound type = t.interfaceBound type := by
  have hlayers : GoType.layersOf (s.known.map (·.underlying)) =
      GoType.layersOf (t.known.map (·.underlying)) := by
    have hknown := h.known
    generalize s.known = old at hknown ⊢
    generalize t.known = new at hknown ⊢
    induction hknown with
    | nil => rfl
    | cons hrel _ ih =>
        rw [List.map_cons, List.map_cons, GoType.layersOf, GoType.layersOf, ih,
          hrel.underlying.layers]
  unfold Session.interfaceBound
  rw [GoType.layersOf, GoType.layersOf, hlayers, h.known.length_eq]

theorem Refielded.interfaceMethods? (h : s.Refielded t) (type : GoType) :
    s.interfaceMethods? type = t.interfaceMethods? type := by
  unfold Session.interfaceMethods?
  rw [h.interfaceBound, h.interfaceWithin]

/-!
# Depths
-/

theorem embeddedTypes_perm (viaPointer : Bool) {fields fields' : List (Field GoType)}
    (h : fields.Perm fields') :
    (embeddedTypes viaPointer fields).Perm (embeddedTypes viaPointer fields') :=
  (h.filter _).filterMap _

theorem Refielded.oneLevel (h : s.Refielded t) (q : Reached) :
    (s.oneLevel q).1 = (t.oneLevel q).1 ∧ (s.oneLevel q).2.Perm (t.oneLevel q).2 := by
  unfold Session.oneLevel
  rcases h.cases q.name with ⟨hs, ht⟩ | ⟨d, e, hs, ht, hrel⟩
  · rw [hs, ht]
    exact ⟨rfl, List.Perm.refl _⟩
  · rw [hs, ht]
    dsimp only
    rw [hrel.isAlias, hrel.methods]
    split
    · have hunalias : (s.unalias d.underlying).Refielded (t.unalias e.underlying) :=
        h.unaliasWithin aliasLimit hrel.underlying
      rcases hunalias with heq | ⟨fields, fields', hold, hnew, _⟩
      · rw [heq]
        exact ⟨rfl, List.Perm.refl _⟩
      · rw [hold, hnew]
        exact ⟨rfl, List.Perm.refl _⟩
    · rcases hrel.underlying with heq | ⟨fields, fields', hold, hnew, hperm⟩
      · rw [heq, h.interfaceMethods?]
        exact ⟨rfl, List.Perm.refl _⟩
      · rw [hold, hnew]
        exact ⟨rfl, embeddedTypes_perm q.viaPointer hperm⟩

theorem Refielded.own? (h : s.Refielded t) (method : String) (q : Reached) :
    s.own? method q = t.own? method q := by
  unfold Session.own?
  rw [(h.oneLevel q).1]

variable {r : Reached}

theorem comes_of_perm (h : forall q, (s.oneLevel q).2.Perm (t.oneLevel q).2) {depth : Nat}
    {q : Reached} (hq : s.Comes r depth q) : t.Comes r depth q := by
  induction hq with
  | here => exact Comes.here
  | @step depth q p _ hp ih => exact Comes.step ih ((h q).mem_iff.mp hp)

theorem Refielded.comes (h : s.Refielded t) (depth : Nat) (q : Reached) :
    s.Comes r depth q ↔ t.Comes r depth q :=
  ⟨comes_of_perm fun q => (h.oneLevel q).2, comes_of_perm fun q => (h.oneLevel q).2.symm⟩

theorem Refielded.at (h : s.Refielded t) (depth : Nat) (q : Reached) :
    s.At r depth q ↔ t.At r depth q := by
  constructor
  · intro hq
    exact ⟨(h.comes depth q).mp hq.comes,
      fun lesser p hlesser hp => hq.least lesser p hlesser ((h.comes lesser p).mpr hp)⟩
  · intro hq
    exact ⟨(h.comes depth q).mpr hq.comes,
      fun lesser p hlesser hp => hq.least lesser p hlesser ((h.comes lesser p).mp hp)⟩

theorem Refielded.offers (h : s.Refielded t) (method : String) (depth : Nat)
    (signature : Signature GoType) :
    s.Offers r method depth signature ↔ t.Offers r method depth signature := by
  unfold Session.Offers
  simp only [h.at, h.own?]

theorem Refielded.shallow (h : s.Refielded t) (method : String) (depth : Nat) :
    s.Shallow r method depth ↔ t.Shallow r method depth := by
  unfold Session.Shallow
  simp only [h.at, h.own?]

theorem Refielded.contested (h : s.Refielded t) (method : String) :
    s.Contested r method ↔ t.Contested r method := by
  unfold Session.Contested
  simp only [h.at, h.own?, h.shallow]

theorem Refielded.distinct (h : s.Refielded t) : s.Distinct r ↔ t.Distinct r := by
  unfold Session.Distinct
  simp only [h.comes]

theorem Refielded.promotedMethods (h : s.Refielded t) (hdistinct : s.Distinct r)
    {method : String} (hcontested : ¬ s.Contested r method) :
    (t.promotedMethods [r]).get? method = (s.promotedMethods [r]).get? method := by
  apply Option.ext
  intro signature
  have huncontested : ¬ t.Contested r method := fun ht => hcontested ((h.contested _).mpr ht)
  rw [get?_promotedMethods_iff hdistinct hcontested,
    get?_promotedMethods_iff (h.distinct.mp hdistinct) huncontested]
  simp only [h.offers, h.shallow]

/-!
# Method sets
-/

theorem comes_of_raised {depth : Nat} {q : Reached} (h : s.Comes r.raised depth q) :
    exists p, s.Comes r depth p ∧ p.raised = q := by
  generalize hstart : r.raised = start at h
  induction h with
  | here => exact ⟨r, Comes.here, hstart⟩
  | @step depth q p _ hp ih =>
      obtain ⟨a, ha, rfl⟩ := ih
      rw [oneLevel_raised] at hp
      obtain ⟨b, hb, rfl⟩ := List.mem_map.mp hp
      exact ⟨b, Comes.step ha hb, rfl⟩

theorem Distinct.raised (h : s.Distinct r) : s.Distinct r.raised := by
  intro depth depth' q p hq hp hfull
  obtain ⟨a, ha, rfl⟩ := comes_of_raised hq
  obtain ⟨b, hb, rfl⟩ := comes_of_raised hp
  exact h depth depth' a b ha hb hfull

/-- How a type has the methods that are promoted from what stands at some depth below it. -/
structure Promotes (s : Session) (r : Reached) (type : GoType) : Prop where
  offered : forall method signature, (s.methodSet type).get? method = some signature ->
    exists depth, s.Offers r method depth signature
  settled : forall method signature, ¬ s.Contested r method ->
    ((s.methodSet type).get? method = some signature ↔
      exists depth, s.Offers r method depth signature ∧ s.Shallow r method depth)
  kept : forall method depth q, s.At r depth q ->
    (forall p, s.At r depth p -> p.name.full = q.name.full ->
      (s.own? method p).isSome = true) -> (s.methodSet type).contains method = true
  orderless : forall t method, s.Refielded t -> ¬ s.Contested r method ->
    (t.methodSet type).get? method = (s.methodSet type).get? method

theorem promotes_of_methodSet {type : GoType} (hdistinct : s.Distinct r)
    (htype : s.methodSet type = s.promotedMethods [r])
    (hother : forall t, s.Refielded t -> t.methodSet type = t.promotedMethods [r]) :
    s.Promotes r type where
  offered method signature hfound := by
    rw [htype] at hfound
    exact offers_of_promoted hdistinct hfound
  settled method signature hcontested := by
    rw [htype]
    exact get?_promotedMethods_iff hdistinct hcontested
  kept method depth q hq hown := by
    rw [htype]
    exact contains_promotedMethods hdistinct hq hown
  orderless t method ht hcontested := by
    rw [htype, hother t ht]
    exact ht.promotedMethods hdistinct hcontested

theorem Refielded.concrete (h : s.Refielded t) {name : TypeName} (hs : s.Concrete name) :
    t.Concrete name := by
  intro e he
  rcases h.cases name with ⟨_, ht⟩ | ⟨d, e', hd, he', hrel⟩
  · cases ht.symm.trans he
  · cases he'.symm.trans he
    obtain ⟨halias, hinterface⟩ := hs d hd
    refine ⟨hrel.isAlias.symm.trans halias, ?_⟩
    unfold TypeDef.isInterface at hinterface ⊢
    rcases hrel.underlying with heq | ⟨fields, fields', _, hnew, _⟩
    · rw [← hrel.isAlias, ← heq]
      exact hinterface
    · rw [hnew]
      exact Bool.and_false _

/-- A declared type and a pointer to it have the methods of the least depths, and those that are
not contested do not depend on the order of fields. -/
theorem promotes_of_concrete (s : Session) (name : TypeName) (d : TypeDef)
    (hd : s.typeDef? name = some d) (hconcrete : s.Concrete name)
    (hdistinct : s.Distinct ⟨name, false⟩) :
    s.Promotes ⟨name, false⟩ (.named name) ∧ s.Promotes ⟨name, true⟩ (.pointer (.named name)) := by
  have hother : forall t, s.Refielded t -> exists e, t.typeDef? name = some e := by
    intro t ht
    rcases ht.cases name with ⟨hnone, _⟩ | ⟨_, e, _, he, _⟩
    · cases hd.symm.trans hnone
    · exact ⟨e, he⟩
  constructor
  · refine promotes_of_methodSet hdistinct (hconcrete.methodSet_value hd) ?_
    intro t ht
    obtain ⟨e, he⟩ := hother t ht
    exact (ht.concrete hconcrete).methodSet_value he
  · refine promotes_of_methodSet hdistinct.raised (hconcrete.methodSet_pointer hd) ?_
    intro t ht
    obtain ⟨e, he⟩ := hother t ht
    exact (ht.concrete hconcrete).methodSet_pointer he

/-!
# Two types at one depth
-/

/-- The types `T` and `U` embed `A`, which has `M()`, and `B`, which has `M(int)`, in either
order. -/
def forkTree : FileTree :=
  let source := "package a\n\ntype A int\n\nfunc (A) M() \x7b\x7d\n\ntype B int\n\n" ++
    "func (B) M(int) \x7b\x7d\n\ntype T struct\x7b A; B \x7d\n\n" ++
    "type U struct\x7b B; A \x7d\n"
  ⟨[(["w", "a", "a.go"], Text.encode source)], [], []⟩

def forkSession : Session :=
  after (goSetup forkTree ⟨some ⟨"/w"⟩, none, "vendor"⟩ ⟨false, false⟩) [.resolve "a"]

def forkType (name : String) : Reached := ⟨.declared "a" name, false⟩

def Reached.parts (q : Reached) : Bool × String × String × Bool :=
  (q.name.isBuiltin, q.name.packagePath, q.name.name, q.viaPointer)

theorem Reached.parts_injective : Function.Injective Reached.parts := by
  rintro ⟨name, viaPointer⟩ ⟨name', viaPointer'⟩ h
  simp only [Reached.parts, Prod.mk.injEq] at h
  obtain ⟨hbuiltin, hpackage, hname, rfl⟩ := h
  cases name with
  | builtin word =>
      cases name' with
      | builtin word' =>
          cases hname
          rfl
      | declared package name => cases hbuiltin
  | declared package name =>
      cases name' with
      | builtin word' => cases hbuiltin
      | declared package' name' =>
          cases hpackage
          cases hname
          rfl

theorem fork_checked :
    ((forkSession.oneLevel (forkType "T")).2.map Reached.parts =
        [forkType "A", forkType "B"].map Reached.parts ∧
      (forkSession.oneLevel (forkType "A")).2.isEmpty = true ∧
      (forkSession.oneLevel (forkType "B")).2.isEmpty = true) ∧
    ((forkSession.typeDef? (.declared "a" "T")).map fun d => (d.isAlias, d.isInterface)) =
      some (false, false) ∧
    ((forkSession.own? "M" (forkType "T")).isNone = true ∧
      (forkSession.own? "M" (forkType "A")).isSome = true ∧
      (forkSession.own? "M" (forkType "B")).isSome = true) ∧
    forkSession.writtenMethod (.named (.declared "a" "T")) = some "func()" ∧
    forkSession.writtenMethod (.pointer (.named (.declared "a" "T"))) = some "func()" ∧
    forkSession.writtenMethod (.named (.declared "a" "U")) = some "func(int)" := by
  decide +kernel

theorem oneLevel_fork :
    (forkSession.oneLevel (forkType "T")).2 = [forkType "A", forkType "B"] ∧
      (forkSession.oneLevel (forkType "A")).2 = [] ∧
      (forkSession.oneLevel (forkType "B")).2 = [] := by
  obtain ⟨⟨hfirst, hone, htwo⟩, _⟩ := fork_checked
  exact ⟨Reached.parts_injective.list_map hfirst, List.isEmpty_iff.mp hone,
    List.isEmpty_iff.mp htwo⟩

theorem comes_fork {depth : Nat} {q : Reached} (h : forkSession.Comes (forkType "T") depth q) :
    depth = 0 ∧ q = forkType "T" ∨ depth = 1 ∧ (q = forkType "A" ∨ q = forkType "B") := by
  induction h with
  | here => exact Or.inl ⟨rfl, rfl⟩
  | @step depth q p _ hp ih =>
      obtain ⟨hfirst, hone, htwo⟩ := oneLevel_fork
      rcases ih with ⟨rfl, rfl⟩ | ⟨_, rfl | rfl⟩
      · rw [hfirst] at hp
        exact Or.inr ⟨rfl, List.mem_pair.mp hp⟩
      · rw [hone] at hp
        cases hp
      · rw [htwo] at hp
        cases hp

theorem promotes_of_concrete_fork : exists d,
    forkSession.typeDef? (.declared "a" "T") = some d ∧
    forkSession.Concrete (.declared "a" "T") ∧ forkSession.Distinct (forkType "T") ∧
    forkSession.Promotes (forkType "T") (.named (.declared "a" "T")) ∧
    forkSession.Promotes (forkType "T").raised (.pointer (.named (.declared "a" "T"))) := by
  obtain ⟨d, hd, hboth⟩ := Option.map_eq_some_iff.mp fork_checked.2.1
  have hconcrete : forkSession.Concrete (.declared "a" "T") := by
    intro e he
    cases hd.symm.trans he
    exact Prod.mk.inj hboth
  have hdistinct : forkSession.Distinct (forkType "T") := by
    intro depth depth' q p hq hp hfull
    have hq' : q = forkType "T" ∨ q = forkType "A" ∨ q = forkType "B" :=
      (comes_fork hq).imp And.right And.right
    have hp' : p = forkType "T" ∨ p = forkType "A" ∨ p = forkType "B" :=
      (comes_fork hp).imp And.right And.right
    rcases hq' with rfl | rfl | rfl
    · rcases hp' with rfl | rfl | rfl
      · rfl
      · exact absurd hfull (by decide)
      · exact absurd hfull (by decide)
    · rcases hp' with rfl | rfl | rfl
      · exact absurd hfull (by decide)
      · rfl
      · exact absurd hfull (by decide)
    · rcases hp' with rfl | rfl | rfl
      · exact absurd hfull (by decide)
      · exact absurd hfull (by decide)
      · rfl
  exact ⟨d, hd, hconcrete, hdistinct,
    promotes_of_concrete forkSession (.declared "a" "T") d hd hconcrete hdistinct⟩

/-- The types `A` and `B` both have `M` at depth one of `T`, where nothing above has it.  It is
promoted nevertheless, and with another signature in `U`, which has the same fields in the other
order. -/
theorem ambiguous_promoted :
    forkSession.At (forkType "T") 1 (forkType "A") ∧
    forkSession.At (forkType "T") 1 (forkType "B") ∧
    (forkSession.own? "M" (forkType "A")).isSome = true ∧
    (forkSession.own? "M" (forkType "B")).isSome = true ∧
    forkSession.Shallow (forkType "T") "M" 1 ∧
    forkSession.writtenMethod (.named (.declared "a" "T")) = some "func()" ∧
    forkSession.writtenMethod (.pointer (.named (.declared "a" "T"))) = some "func()" ∧
    forkSession.writtenMethod (.named (.declared "a" "U")) = some "func(int)" := by
  have hleast : forall name, name = "A" ∨ name = "B" -> forall lesser p, lesser < 1 ->
      forkSession.Comes (forkType "T") lesser p -> p.name.full ≠ (forkType name).name.full := by
    intro name hname lesser p hlesser hp
    rcases comes_fork hp with ⟨_, rfl⟩ | ⟨rfl, _⟩
    · rcases hname with rfl | rfl
      · decide
      · decide
    · exact absurd hlesser (Nat.lt_irrefl 1)
  have hfirst := oneLevel_fork.1
  obtain ⟨_, _, ⟨hnone, hone, htwo⟩, hwritten⟩ := fork_checked
  refine ⟨⟨Comes.step Comes.here ?_, hleast "A" (Or.inl rfl)⟩,
    ⟨Comes.step Comes.here ?_, hleast "B" (Or.inr rfl)⟩, hone, htwo, ?_, hwritten⟩
  · rw [hfirst]
    exact List.mem_cons_self
  · rw [hfirst]
    exact List.mem_cons_of_mem _ (List.mem_singleton_self _)
  · intro lesser q hlesser hq
    rcases comes_fork hq.comes with ⟨_, rfl⟩ | ⟨rfl, _⟩
    · exact Option.isNone_iff_eq_none.mp hnone
    · exact absurd hlesser (Nat.lt_irrefl 1)

end Session
end GoAtlas
