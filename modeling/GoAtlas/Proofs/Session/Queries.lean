import GoAtlas.Proofs.Session.Flattening
import GoAtlas.Proofs.Session.Implementers
import GoAtlas.Proofs.Session.Promotion

/-!
# Two questions about implementation

A search lists the indexed types that implement an interface, and a single type can be asked
whether it does.  The search skips aliases, interfaces and the interface itself, and the single
question takes a type to implement itself; neither makes a difference, so both agree on every
indexed type, and both refuse what is no interface.
-/

namespace GoAtlas
namespace Session

variable {s : Session}

/-!
# Indexed types
-/

/-- The definition is indexed and neither an alias nor an interface. -/
structure Listed (s : Session) (e : TypeDef) : Prop where
  indexed : e ∈ s.index.definitions
  proper : e.isAlias = false
  concrete : e.isInterface = false

/-- An indexed definition is found under every name that is written like its own. -/
theorem Consistent.get?_of_indexed (h : s.Consistent) {e : TypeDef}
    (he : e ∈ s.index.definitions) {name : TypeName} (hfull : name.full = e.name.full) :
    s.index.get? name = some e := by
  obtain ⟨full, hget⟩ := Table.mem_values_iff.mp he
  have hkey := h.keys full e hget
  unfold Index.get?
  rw [hfull, hkey]
  exact hget

theorem Consistent.typeDef_of_indexed (h : s.Consistent) {e : TypeDef}
    (he : e ∈ s.index.definitions) {name : TypeName} (hfull : name.full = e.name.full)
    {d : TypeDef} (hd : s.typeDef? name = some d) : d = e := by
  cases name with
  | builtin word =>
      obtain ⟨path, p, hp, hsource, hvalue⟩ := h.mem_definitions_iff.mp he
      obtain ⟨name, _, hname⟩ := h.name_of_mem_values hp hsource hvalue
      rw [hname] at hfull
      have hword : word ≠ "error" := by
        rintro rfl
        have hchars := congrArg String.toList hfull
        rw [TypeName.toList_full_declared] at hchars
        have hdot : '.' ∈ path.toList ++ '.' :: name.toList :=
          List.mem_append_right _ List.mem_cons_self
        rw [← hchars] at hdot
        exact absurd hdot (by decide)
      simp only [typeDef?] at hd
      rw [if_neg (by simpa using hword)] at hd
      cases hd
  | declared package name =>
      change s.definition? (.declared package name) = some d at hd
      unfold definition? at hd
      rw [h.get?_of_indexed he hfull] at hd
      exact (Option.some.inj hd).symm

theorem Listed.interfaceMethods (h : s.Consistent) {e : TypeDef} (he : s.Listed e)
    {name : TypeName} (hfull : name.full = e.name.full) :
    s.interfaceMethods? (.named name) = none := by
  have hproper : s.Concrete name := by
    intro d hd
    rw [h.typeDef_of_indexed he.indexed hfull hd]
    exact ⟨he.proper, he.concrete⟩
  apply interfaceMethods_of_bare
  rw [interfaceBehind?_of_named hproper.unalias]
  apply Option.eq_none_iff_forall_ne_some.mpr
  rintro ⟨methods, embedded⟩ hiface
  obtain ⟨d, hd, hunderlying⟩ := interfaceOf?_eq_some_iff.mp hiface
  obtain ⟨halias, hinterface⟩ := hproper d hd
  unfold TypeDef.isInterface at hinterface
  rw [halias, hunderlying] at hinterface
  cases hinterface

theorem full_eq_of_beq {name other : TypeName} (h : (name == other) = true) :
    name.full = other.full :=
  eq_of_beq (α := String) h

theorem full_of_same {name : TypeName} {type : GoType} (h : (GoType.named name == type) = true) :
    exists other, type = .named other ∧ other.full = name.full := by
  cases type with
  | named other => exact ⟨other, rfl, (full_eq_of_beq h).symm⟩
  | _ => cases h

/-!
# Satisfaction
-/

def Meets (s : Session) (type iface : GoType) : Prop :=
  exists required, s.interfaceMethods? iface = some required ∧
    forall method signature, required.get? method = some signature ->
      exists found, (s.methodSet type).get? method = some found ∧ (found == signature) = true

theorem satisfies_iff {type iface : GoType} {required : MethodSet}
    (h : s.interfaceMethods? iface = some required) :
    s.satisfies type required = true ↔ s.Meets type iface := by
  unfold satisfies Meets
  rw [List.all_eq_true]
  constructor
  · intro hall
    refine ⟨required, h, ?_⟩
    intro method signature hmethod
    have hentry := hall (method, signature) (Table.mem_entries_iff.mpr hmethod)
    dsimp only at hentry
    split at hentry
    · next found hfound => exact ⟨found, hfound, hentry⟩
    · cases hentry
  · rintro ⟨required', hrequired, hall⟩ ⟨method, signature⟩ hentry
    cases h.symm.trans hrequired
    obtain ⟨found, hfound, hsame⟩ := hall method signature (Table.mem_entries_iff.mp hentry)
    dsimp only
    rw [hfound]
    exact hsame

/-- A listed type implements an interface if it satisfies it, or a pointer to it does: it is never
the interface itself. -/
theorem Listed.implements_iff (h : s.Consistent) {e : TypeDef} (he : s.Listed e) {iface : GoType}
    {required : MethodSet} (hrequired : s.interfaceMethods? iface = some required) :
    s.implements (.named e.name) iface = .ok true ↔
      s.Meets (.named e.name) iface ∨ s.Meets (.pointer (.named e.name)) iface := by
  have hdiffers : (GoType.named e.name == iface) = false := by
    apply Bool.eq_false_iff.mpr
    intro hsame
    obtain ⟨other, rfl, hfull⟩ := full_of_same hsame
    cases (he.interfaceMethods h hfull).symm.trans hrequired
  unfold implements
  rw [hrequired, ← satisfies_iff hrequired, ← satisfies_iff hrequired]
  dsimp only
  rw [hdiffers, Bool.false_or]
  cases s.satisfies (.named e.name) required with
  | true => simp
  | false => simp

theorem implements_error_iff {type iface : GoType} :
    (exists text, s.implements type iface = .error (.notInterface text)) ↔
      s.interfaceMethods? iface = none := by
  unfold implements
  cases s.interfaceMethods? iface with
  | none => simp
  | some required =>
      dsimp only
      split
      · simp
      · split
        · simp
        · simp

/-!
# The search
-/

/-- What a search lists are the listed types that satisfy the interface; none of them is the
interface itself. -/
theorem mem_implementersOf_iff (h : s.Consistent) {iface : TypeName} {d : TypeDef}
    (hd : s.definition? iface = some d) {required : MethodSet}
    (hrequired : s.interfaceMethods? d.asType = some required) {name : TypeName}
    {form : Implementation} :
    (name, form) ∈ s.implementersOf iface required ↔
      exists e, s.Listed e ∧ e.name = name ∧ s.implementation? name required = some form := by
  unfold implementersOf
  rw [List.mem_filterMap]
  constructor
  · rintro ⟨e, he, hfound⟩
    split at hfound
    · cases hfound
    · next hkept =>
        obtain ⟨form', hform, heq⟩ := Option.map_eq_some_iff.mp hfound
        cases heq
        simp only [Bool.or_eq_true, not_or, Bool.not_eq_true] at hkept
        exact ⟨e, ⟨he, hkept.1.2, hkept.2⟩, rfl, hform⟩
  · rintro ⟨e, he, rfl, hform⟩
    have hother : (e.name == iface) = false := by
      apply Bool.eq_false_iff.mpr
      intro hsame
      unfold definition? at hd
      rw [h.get?_of_indexed he.indexed (full_eq_of_beq hsame).symm] at hd
      have htype : e.asType = .named e.name := by
        unfold TypeDef.asType
        rw [he.proper]
        rfl
      rw [← Option.some.inj hd, htype, he.interfaceMethods h rfl] at hrequired
      cases hrequired
    refine ⟨e, he.indexed, ?_⟩
    rw [hother, he.proper, he.concrete, hform]
    rfl

theorem searched_of_definition {iface : TypeName} {d : TypeDef}
    (hd : s.definition? iface = some d) :
    s.searched iface =
      match s.interfaceMethods? d.asType with
      | none => .error (.notInterface iface.full)
      | some required => .ok (s.implementersOf iface required) := by
  unfold searched
  cases hmethods : s.interfaceMethods? d.asType with
  | none => simp only [hd, hmethods]
  | some required => simp only [hd, hmethods]

theorem exists_ok_of_resolved {path : String} {t : Session} {r : Except Error (Option Package)}
    (hnone : s.package? path = none) (hrun : (resolve path).run s = (r, t))
    (hpackage : (t.package? path).isSome = true) : exists package, r = .ok package := by
  obtain ⟨p, hp⟩ := Option.isSome_iff_exists.mp hpackage
  have hentry := package?_eq_some_iff.mp hp
  rw [run_resolve, run_resolveFrom] at hrun
  have hrequests := requests_of_run hrun
  cases hold : s.cache.get? path with
  | none => exact ⟨some p, firstAnswer_of_requests hrequests hold hentry⟩
  | some entry =>
      rw [run_resolveWithin_cached hold] at hrun
      obtain ⟨_, rfl⟩ := Prod.mk.inj hrun
      cases hold.symm.trans hentry
      rw [package?_eq_some_iff.mpr hold] at hnone
      cases hnone

/-- When the package of the interface is there in the end, the search has come to its
definition. -/
theorem run_findImplementers_of_resolved {iface : TypeName} {d : TypeDef}
    (hpackage : (((findImplementers iface).run s).2.package? iface.packagePath).isSome = true)
    (hd : ((findImplementers iface).run s).2.definition? iface = some d) :
    ((findImplementers iface).run s).1 =
      match ((findImplementers iface).run s).2.interfaceMethods? d.asType with
      | none => .error (.notInterface iface.full)
      | some required =>
          .ok (((findImplementers iface).run s).2.implementersOf iface required) := by
  rw [run_findImplementers_eq] at hpackage hd ⊢
  cases hnone : (s.package? iface.packagePath).isNone with
  | false =>
      rw [hnone, if_neg Bool.false_ne_true] at hd
      exact searched_of_definition hd
  | true =>
      rw [hnone, if_pos rfl] at hpackage hd
      rw [if_pos rfl]
      rcases hrun : (resolve iface.packagePath).run s with ⟨r, t⟩
      rw [hrun] at hpackage hd
      cases r with
      | ok package => exact searched_of_definition hd
      | error e =>
          obtain ⟨package, hok⟩ :=
            exists_ok_of_resolved (Option.isNone_iff_eq_none.mp hnone) hrun hpackage
          cases hok

/-- The answers of a search and of single questions about one interface. -/
structure QueriesAgree (s : Session) (iface : TypeName) (d : TypeDef)
    (result : Except Error (List (TypeName × Implementation))) : Prop where
  answered : (exists found, result = .ok found) ∨ exists text, result = .error (.notInterface text)
  listed : forall found name, result = .ok found ->
    ((exists form, (name, form) ∈ found) ↔
      exists e, s.Listed e ∧ e.name = name ∧ s.implements (.named name) d.asType = .ok true)
  value : forall found name, result = .ok found ->
    ((name, .value) ∈ found ↔
      exists e, s.Listed e ∧ e.name = name ∧ s.Meets (.named name) d.asType)
  pointer : forall found name, result = .ok found ->
    ((name, .pointer) ∈ found ↔
      exists e, s.Listed e ∧ e.name = name ∧ ¬ s.Meets (.named name) d.asType ∧
        s.Meets (.pointer (.named name)) d.asType)
  refused : forall type, (exists text, result = .error (.notInterface text)) ↔
    exists text, s.implements type d.asType = .error (.notInterface text)

theorem implementation?_eq_value_iff {name : TypeName} {iface : GoType} {required : MethodSet}
    (h : s.interfaceMethods? iface = some required) :
    s.implementation? name required = some .value ↔ s.Meets (.named name) iface := by
  rw [← satisfies_iff h]
  unfold implementation?
  cases s.satisfies (.named name) required with
  | true => simp
  | false =>
      cases s.satisfies (.pointer (.named name)) required with
      | true => simp
      | false => simp

theorem implementation?_eq_pointer_iff {name : TypeName} {iface : GoType} {required : MethodSet}
    (h : s.interfaceMethods? iface = some required) :
    s.implementation? name required = some .pointer ↔
      ¬ s.Meets (.named name) iface ∧ s.Meets (.pointer (.named name)) iface := by
  rw [← satisfies_iff h, ← satisfies_iff h]
  unfold implementation?
  cases s.satisfies (.named name) required with
  | true => simp
  | false =>
      cases s.satisfies (.pointer (.named name)) required with
      | true => simp
      | false => simp

/-- After any operations, a search and single questions in the session that it leaves agree. -/
theorem queriesAgree_after (setup : Setup) (ops : List Operation) (iface : TypeName) (d : TypeDef)
    (hpackage : (((findImplementers iface).run (after setup ops)).2.package?
      iface.packagePath).isSome = true)
    (hd : ((findImplementers iface).run (after setup ops)).2.definition? iface = some d) :
    QueriesAgree ((findImplementers iface).run (after setup ops)).2 iface d
      ((findImplementers iface).run (after setup ops)).1 := by
  have hresult := run_findImplementers_of_resolved hpackage hd
  have hconsistent : ((findImplementers iface).run (after setup ops)).2.Consistent := by
    have happend : after setup (ops ++ [.findImplementers iface]) =
        ((findImplementers iface).run (after setup ops)).2 := after_append _ _ _
    rw [← happend]
    exact consistent_after _ _
  generalize ((findImplementers iface).run (after setup ops)).2 = s at hresult hconsistent hd ⊢
  rw [hresult]
  cases hmethods : s.interfaceMethods? d.asType with
  | none =>
      exact
        { answered := Or.inr ⟨_, rfl⟩
          listed := fun _ _ h => nomatch h
          value := fun _ _ h => nomatch h
          pointer := fun _ _ h => nomatch h
          refused := fun _ => by simp [implements_error_iff, hmethods] }
  | some required =>
      have hmem : forall {name : TypeName} {form : Implementation},
          (name, form) ∈ s.implementersOf iface required ↔
            exists e, s.Listed e ∧ e.name = name ∧ s.implementation? name required = some form :=
        mem_implementersOf_iff hconsistent hd hmethods
      refine ⟨Or.inl ⟨_, rfl⟩, ?_, ?_, ?_, fun _ => by simp [implements_error_iff, hmethods]⟩
      · rintro _ name ⟨⟩
        simp only [hmem]
        constructor
        · rintro ⟨form, e, he, rfl, hform⟩
          refine ⟨e, he, rfl, (he.implements_iff hconsistent hmethods).mpr ?_⟩
          cases form with
          | value => exact Or.inl ((implementation?_eq_value_iff hmethods).mp hform)
          | pointer => exact Or.inr ((implementation?_eq_pointer_iff hmethods).mp hform).2
        · rintro ⟨e, he, rfl, himplements⟩
          by_cases hvalue : s.Meets (.named e.name) d.asType
          · exact ⟨.value, e, he, rfl, (implementation?_eq_value_iff hmethods).mpr hvalue⟩
          · have hpointer :=
              ((he.implements_iff hconsistent hmethods).mp himplements).resolve_left hvalue
            exact ⟨.pointer, e, he, rfl,
              (implementation?_eq_pointer_iff hmethods).mpr ⟨hvalue, hpointer⟩⟩
      · rintro _ name ⟨⟩
        rw [hmem, implementation?_eq_value_iff hmethods]
      · rintro _ name ⟨⟩
        rw [hmem, implementation?_eq_pointer_iff hmethods]

/-- A search for `a.S`, which is implemented by value and through pointers. -/
theorem queriesAgree_after_shapes : exists d,
    (((findImplementers (.declared "a" "S")).run (shapeSession [])).2.package? "a").isSome = true ∧
    ((findImplementers (.declared "a" "S")).run (shapeSession [])).2.definition?
      (.declared "a" "S") = some d ∧
    QueriesAgree ((findImplementers (.declared "a" "S")).run (shapeSession [])).2
      (.declared "a" "S") d ((findImplementers (.declared "a" "S")).run (shapeSession [])).1 := by
  have hboth : (((findImplementers (.declared "a" "S")).run
        (shapeSession [])).2.package? "a").isSome = true ∧
      (((findImplementers (.declared "a" "S")).run (shapeSession [])).2.definition?
        (.declared "a" "S")).isSome = true := by
    decide +kernel
  obtain ⟨hpackage, hsome⟩ := hboth
  obtain ⟨d, hd⟩ := Option.isSome_iff_exists.mp hsome
  exact ⟨d, hpackage, hd, queriesAgree_after (goSetup shapeTree shapeRoots ⟨false, false⟩) []
    (.declared "a" "S") d hpackage hd⟩

/-!
# A definition under another name
-/

/-- The package `a.b` declares an interface and a type that implements it; the package `a` cannot
be read. -/
def brokenTree : FileTree :=
  let source := "package b\n\ntype C interface\x7b M() \x7d\n\ntype X int\n\n" ++
    "func (X) M() \x7b\x7d\n"
  ⟨[(["w", "a", "x.go"], Text.encode "package\n"),
    (["w", "a.b", "z.go"], Text.encode source)], [], []⟩

/-- A search for the interface `b.C` of the package `a`, which is written like `C` of `a.b`. -/
def brokenSearch : Except Error (List (TypeName × Implementation)) × Session :=
  (findImplementers (.declared "a" "b.C")).run
    (after (goSetup brokenTree ⟨some ⟨"/w"⟩, none, "vendor"⟩ ⟨false, false⟩) [.resolve "a.b"])

/-- The name has a definition, which a listed type implements, and the search fails all the
same: it asks for the package of the name first. -/
theorem search_fails_beside_definition :
    (exists d e, brokenSearch.2.definition? (.declared "a" "b.C") = some d ∧
      brokenSearch.2.Listed e ∧
      brokenSearch.2.implements (.named e.name) d.asType = .ok true) ∧
    ¬ exists found, brokenSearch.1 = .ok found := by
  have hboth : ((brokenSearch.2.definition? (.declared "a" "b.C")).map fun d =>
        brokenSearch.2.index.definitions.any fun e => !e.isAlias && !e.isInterface &&
          (brokenSearch.2.implements (.named e.name) d.asType).toOption == some true) = some true ∧
      brokenSearch.1.toOption.isNone = true := by
    decide +kernel
  obtain ⟨hfound, hfailed⟩ := hboth
  obtain ⟨d, hd, hany⟩ := Option.map_eq_some_iff.mp hfound
  obtain ⟨e, he, hall⟩ := List.any_eq_true.mp hany
  simp only [Bool.and_eq_true, Bool.not_eq_true', beq_iff_eq] at hall
  refine ⟨⟨d, e, hd, ⟨he, hall.1.1, hall.1.2⟩, ok_of_toOption hall.2⟩, ?_⟩
  rintro ⟨found, hok⟩
  rw [hok] at hfailed
  cases hfailed

end Session
end GoAtlas
