import GoAtlas.Proofs.Check.UndottedConstants
import GoAtlas.Proofs.Session.Sources
import GoAtlas.Session.ConstGroup

/-!
# Constants grouped by their types

Every constant of a package that was resolved from sources has a basic type, a type that the
package defines, or a type of another package.  The groups of the types of the package share out
the constants of the second sort: each one stands in the group of its own type and in no other.
Names of types are compared as text, so a constant of the third sort is found only under a local
name that has a dot and so spells the name of the other package.
-/

namespace GoAtlas

/-!
# Names of types
-/

theorem TypeName.isType_iff {n : TypeName} {type : GoType} :
    n.isType type = true ↔ exists m, type = .named m ∧ m.full = n.full := by
  constructor
  · intro h
    cases type with
    | named m => exact ⟨m, rfl, Session.full_eq_of_beq h⟩
    | _ => cases h
  · rintro ⟨m, rfl, hfull⟩
    exact beq_of_eq (α := String) hfull

def ConstGroup.Lists (g : ConstGroup) (path name : String) : Prop :=
  .declared path name ∈ g.values.map (·.1)

/-!
# Laws of constants
-/

/-- The constants of a package that is read from sources are among those that the sources declare,
in the same order. -/
def Package.InOrder (p : Package) : Prop :=
  p.kind.isSource = true -> p.path ≠ "" ∧ exists source, p.source = some source ∧
    (p.consts.map ConstDef.name).Sublist (source.constants.map ConstDecl.name)

theorem Package.InOrder.nodup {p : Package} (h : p.InOrder) (hsource : p.kind.isSource = true) :
    (p.consts.map ConstDef.name).Nodup := by
  obtain ⟨_, source, _, hsublist⟩ := h hsource
  exact (nodup_constants source).sublist hsublist

theorem Registry.ofConst_of_standard {path : String} {model : CheckedPackage}
    (h : standard.get? path = some model) {c : ConstDef} (hc : c ∈ model.consts) :
    c.type.OfConst := by
  unfold standard at h
  rw [Table.get?_ofList_iff (by decide)] at h
  simp only [List.mem_cons, List.not_mem_nil, or_false, Prod.mk.injEq] at h
  rcases h with ⟨rfl, rfl⟩ | ⟨rfl, rfl⟩ | ⟨rfl, rfl⟩ | ⟨rfl, rfl⟩ | ⟨rfl, rfl⟩
  · cases hc
  · cases hc
  · have htype : c.type = .named (.declared "time" "Duration") := by
      simp only [timeModel, List.mem_cons, List.not_mem_nil, or_false] at hc
      rcases hc with rfl | rfl | rfl | rfl | rfl | rfl
      all_goals rfl
    rw [htype]
    exact .declared "time" (show '.' ∉ "Duration".toList by decide)
  · cases hc
  · cases hc

namespace Session

theorem allUndotted_systemPackage (path : String) (dir : Option Path) :
    (systemPackage Registry.standard path dir).AllUndotted where
  types := undotted_systemPackage path dir
  consts := by
    intro c hc
    unfold systemPackage at hc
    cases hmodel : Registry.standard.get? path with
    | none =>
        rw [hmodel] at hc
        cases hc
    | some model =>
        rw [hmodel] at hc
        exact Registry.ofConst_of_standard hmodel hc

theorem packageLaw_allUndotted : PackageLaw Registry.standard Package.AllUndotted where
  system := allUndotted_systemPackage
  checked tree tests dir path kind source answers hload hasked index hpath haccepts := by
    constructor
    · intro name d hd
      refine undotted_of_asked hload ?_ ((Package.get?_typeTable_iff hpath haccepts).mp hd).1
      exact fun q p hq hp => (hasked q p hq hp).types
    · exact fun c hc => ofConst_of_asked hload hasked hc

theorem packageLaw_inOrder (registry : Registry) : PackageLaw registry Package.InOrder where
  system path dir := by
    intro hsource
    rw [kind_systemPackage] at hsource
    cases hsource
  checked tree tests dir path kind source answers hload _ index hpath haccepts := by
    intro _
    refine ⟨hpath, source, rfl, ?_⟩
    change (((checkGo source).under answers).package.consts.map ConstDef.name).Sublist _
    rw [under_checkGo]
    exact (constants_checkGo source answers).1

/-!
# Single groups
-/

section Groups

variable {s : Session} {n : TypeName} {unexported : Bool} {g : ConstGroup} {consts : List ConstDef}

theorem mem_constsOf_iff {m : TypeName} {value : Constant} :
    (m, value) ∈ constsOf n unexported consts ↔
      exists c, c ∈ consts ∧ n.isType c.type = true ∧
        (unexported = true ∨ isExported c.name = true) ∧
        m = .declared n.packagePath c.name ∧ value = c.value := by
  unfold constsOf
  rw [List.mem_map]
  constructor
  · rintro ⟨c, hc, heq⟩
    obtain ⟨hmem, hkept⟩ := List.mem_filter.mp hc
    simp only [Bool.and_eq_true, Bool.or_eq_true] at hkept
    cases heq
    exact ⟨c, hmem, hkept.1, hkept.2, rfl, rfl⟩
  · rintro ⟨c, hmem, htype, hshown, rfl, rfl⟩
    refine ⟨c, List.mem_filter.mpr ⟨hmem, ?_⟩, rfl⟩
    simp only [Bool.and_eq_true, Bool.or_eq_true]
    exact ⟨htype, hshown⟩

theorem constsOf_sublist : (constsOf n unexported consts).Sublist
    (consts.map fun c => (.declared n.packagePath c.name, c.value)) :=
  List.filter_sublist.map _

theorem constsOf_exported : constsOf n false consts =
    (constsOf n true consts).filter fun v => isExported v.1.name := by
  unfold constsOf
  rw [List.filter_map, List.filter_filter]
  congr 1
  apply List.filter_congr
  intro c _
  simp [TypeName.name, Bool.and_comm]

theorem nodup_constsOf (h : (consts.map ConstDef.name).Nodup) :
    ((constsOf n unexported consts).map fun v => v.1.name).Nodup := by
  have hsublist : ((constsOf n unexported consts).map fun v => v.1.name).Sublist
      (consts.map ConstDef.name) := by
    unfold constsOf
    rw [List.map_map]
    exact List.filter_sublist.map _
  exact h.sublist hsublist

theorem constGroup_eq_ok_iff : s.constGroup n unexported = .ok g ↔
    exists d p, s.definition? n = some d ∧ d.isAlias = false ∧
      s.package? n.packagePath = some p ∧
      g = ⟨n, d.underlying, s.isEnum n, constsOf n unexported p.consts⟩ := by
  unfold constGroup
  constructor
  · intro h
    split at h
    · cases h
    next d hd =>
      split at h
      · cases h
      next halias =>
        split at h
        · cases h
        next p hp =>
          cases h
          exact ⟨d, p, hd, eq_false_of_ne_true halias, hp, rfl⟩
  · rintro ⟨d, p, hd, halias, hp, rfl⟩
    simp only [hd, halias, hp, Bool.false_eq_true, if_false]

end Groups

/-!
# Groups of a package
-/

section Packages

variable {s : Session} {path : String} {p : Package} {n : TypeName} {unexported : Bool}
  {g : ConstGroup} {c : ConstDef}

/-- A group lists a constant if it is asked for by a name of the same package that is written like
the type of the constant. -/
theorem lists_iff (hp : s.package? path = some p) (hnodup : (p.consts.map ConstDef.name).Nodup)
    (hc : c ∈ p.consts) (hg : s.constGroup n unexported = .ok g) :
    g.Lists path c.name ↔ n.packagePath = path ∧ n.isType c.type = true ∧
      (unexported = true ∨ isExported c.name = true) := by
  obtain ⟨_, q, _, _, hq, rfl⟩ := constGroup_eq_ok_iff.mp hg
  unfold ConstGroup.Lists
  constructor
  · intro hmem
    obtain ⟨⟨m, value⟩, hv, hname⟩ := List.mem_map.mp hmem
    obtain ⟨c', hc', htype, hshown, hm, _⟩ := mem_constsOf_iff.mp hv
    injection hm.symm.trans hname with hpackage hlocal
    rw [hpackage] at hq
    cases hq.symm.trans hp
    cases List.inj_on_of_nodup_map hnodup hc' hc hlocal
    exact ⟨hpackage, htype, hshown⟩
  · rintro ⟨rfl, htype, hshown⟩
    cases hq.symm.trans hp
    exact List.mem_map_of_mem (mem_constsOf_iff.mpr ⟨c, hc, htype, hshown, rfl, rfl⟩)

theorem defined_of_const (hsound : s.Sound) (hconsistent : s.Consistent)
    (hp : s.package? path = some p) (hsource : p.kind.isSource = true) (hc : c ∈ p.consts)
    {name : String} (htype : c.type = .named (.declared path name)) :
    exists d, p.type? name = some d ∧ s.definition? (.declared path name) = some d ∧
      d.name = .declared path name ∧ d.isAlias = false := by
  have hcached := package?_eq_some_iff.mp hp
  have hclosed := hsound.packages path p hcached
  have hknown := hclosed.consts c hc
  rw [htype, GoType.within_declared_iff] at hknown
  obtain ⟨q, hq, hname⟩ := hknown
  cases hq.symm.trans hcached
  rcases hname with htrusted | ⟨d, hd, halias⟩
  · -- Only system packages are taken on trust.
    rw [(hclosed.trusted htrusted).1] at hsource
    cases hsource
  · refine ⟨d, hd, ?_, hclosed.names name d hd, halias⟩
    unfold definition?
    rw [hconsistent.get?_of_source hcached hsource hd]

/-- A group that lists a constant is asked for by a name of the same package, which is written like
the type of the constant. -/
theorem type_of_lists (hp : s.package? path = some p) (hpath : path ≠ "")
    (hnodup : (p.consts.map ConstDef.name).Nodup) (hc : c ∈ p.consts)
    (hg : s.constGroup n unexported = .ok g) (h : g.Lists path c.name) :
    exists name m, n = .declared path name ∧ c.type = .named m ∧
      m.full = (TypeName.declared path name).full := by
  obtain ⟨hpackage, htype, _⟩ := (lists_iff hp hnodup hc hg).mp h
  have hname := TypeName.eq_declared_of_packagePath hpackage hpath
  obtain ⟨m, hm, hfull⟩ := TypeName.isType_iff.mp htype
  exact ⟨n.name, m, hname, hm, hname ▸ hfull⟩

theorem once_in_own_group (hp : s.package? path = some p)
    (hnodup : (p.consts.map ConstDef.name).Nodup) (hc : c ∈ p.consts) {name : String}
    (htype : c.type = .named (.declared path name)) {d : TypeDef}
    (hd : s.definition? (.declared path name) = some d) (halias : d.isAlias = false) :
    exists g, s.constGroup (.declared path name) true = .ok g ∧
      (.declared path c.name, c.value) ∈ g.values ∧
      (g.values.map fun v => v.1.name).count c.name = 1 := by
  have hmem : (.declared path c.name, c.value) ∈ constsOf (.declared path name) true p.consts :=
    mem_constsOf_iff.mpr ⟨c, hc, TypeName.isType_iff.mpr ⟨_, htype, rfl⟩, Or.inl rfl, rfl, rfl⟩
  refine ⟨_, constGroup_eq_ok_iff.mpr ⟨d, p, hd, halias, hp, rfl⟩, hmem, ?_⟩
  exact List.count_eq_one_of_mem (nodup_constsOf hnodup)
    (List.mem_map_of_mem (f := fun v => v.1.name) hmem)

structure Grouped (s : Session) (path : String) (p : Package) : Prop where
  typed : forall c, c ∈ p.consts -> c.type.OfConst
  /-- The type of a constant is defined, and the constant is once in its group. -/
  own : forall c name, c ∈ p.consts -> c.type = .named (.declared path name) ->
    (exists d, p.type? name = some d ∧ s.definition? (.declared path name) = some d ∧
      d.name = .declared path name ∧ d.isAlias = false) ∧
    exists g, s.constGroup (.declared path name) true = .ok g ∧
      (.declared path c.name, c.value) ∈ g.values ∧
      (g.values.map fun v => v.1.name).count c.name = 1
  alone : forall c name n unexported g, c ∈ p.consts ->
    c.type = .named (.declared path name) -> s.constGroup n unexported = .ok g ->
    g.Lists path c.name -> n = .declared path name
  basic : forall c kind n unexported g, c ∈ p.consts -> c.type = .basic kind ->
    s.constGroup n unexported = .ok g -> ¬ g.Lists path c.name
  /-- A constant of a foreign type is listed only under a dotted name of its own package that is
  written like the type. -/
  foreign : forall c package name n unexported g, c ∈ p.consts ->
    c.type = .named (.declared package name) -> package ≠ path ->
    s.constGroup n unexported = .ok g -> g.Lists path c.name ->
    n.packagePath = path ∧ n.full = (TypeName.declared package name).full ∧ '.' ∈ n.name.toList
  /-- Groups keep the order of the constants of the package, which is that of the sources. -/
  ordered : forall n unexported g, s.constGroup n unexported = .ok g -> n.packagePath = path ->
    g.values.Sublist (p.consts.map fun c => (.declared path c.name, c.value)) ∧
      (g.values.map fun v => v.1.name).Nodup
  declared : exists source, p.source = some source ∧
    (p.consts.map ConstDef.name).Sublist (source.constants.map ConstDecl.name)
  exported : forall n g, s.constGroup n true = .ok g -> exists h, s.constGroup n false = .ok h ∧
    h.values = g.values.filter fun v => isExported v.1.name

theorem grouped_of_laws (hsound : s.Sound) (hconsistent : s.Consistent)
    (hundotted : p.AllUndotted) (horder : p.InOrder) (hp : s.package? path = some p)
    (hsource : p.kind.isSource = true) : s.Grouped path p := by
  obtain ⟨hpath, source, hread, hsublist⟩ := horder hsource
  rw [hconsistent.path path p (package?_eq_some_iff.mp hp)] at hpath
  have hnodup := horder.nodup hsource
  constructor
  · exact hundotted.consts
  · intro c name hc htype
    obtain ⟨d, hd, hdef, hname, halias⟩ :=
      defined_of_const hsound hconsistent hp hsource hc htype
    exact ⟨⟨d, hd, hdef, hname, halias⟩, once_in_own_group hp hnodup hc htype hdef halias⟩
  · intro c name n unexported g hc htype hg hlists
    obtain ⟨other, m, rfl, hm, hfull⟩ := type_of_lists hp hpath hnodup hc hg hlists
    cases htype.symm.trans hm
    rw [TypeName.eq_of_full_declared hfull]
  · intro c kind n unexported g hc htype hg hlists
    obtain ⟨_, m, _, hm, _⟩ := type_of_lists hp hpath hnodup hc hg hlists
    cases htype.symm.trans hm
  · intro c package name n unexported g hc htype hforeign hg hlists
    obtain ⟨other, m, rfl, hm, hfull⟩ := type_of_lists hp hpath hnodup hc hg hlists
    cases htype.symm.trans hm
    refine ⟨rfl, hfull.symm, ?_⟩
    by_contra hdot
    -- Without a dot the two names would be cut alike, and so have one package.
    have hplain := hundotted.consts c hc
    rw [htype] at hplain
    cases hplain with
    | declared _ hname => exact hforeign (TypeName.declared_eq_of_full_eq hname hdot hfull).1
  · intro n unexported g hg hpackage
    obtain ⟨_, q, _, _, hq, rfl⟩ := constGroup_eq_ok_iff.mp hg
    subst hpackage
    cases hq.symm.trans hp
    exact ⟨constsOf_sublist, nodup_constsOf hnodup⟩
  · exact ⟨source, hread, hsublist⟩
  · intro n g hg
    obtain ⟨d, q, hd, halias, hq, rfl⟩ := constGroup_eq_ok_iff.mp hg
    exact ⟨_, constGroup_eq_ok_iff.mpr ⟨d, q, hd, halias, hq, rfl⟩, constsOf_exported⟩

end Packages

/-- After any sequence of operations, the groups of types share out the constants of every
package that was resolved from sources. -/
theorem grouped_after (tree : FileTree) (roots : SearchRoots) (options : Options)
    (ops : List Operation) {path : String} {p : Package}
    (hp : (after (goSetup tree roots options) ops).package? path = some p)
    (hsource : p.kind.isSource = true) :
    (after (goSetup tree roots options) ops).Grouped path p := by
  have hundotted : (after (goSetup tree roots options) ops).Obeys Package.AllUndotted :=
    obeys_after rfl packageLaw_allUndotted ops
  have horder : (after (goSetup tree roots options) ops).Obeys Package.InOrder :=
    obeys_after rfl (packageLaw_inOrder _) ops
  have hcached := package?_eq_some_iff.mp hp
  exact grouped_of_laws (sound_after tree roots options ops) (consistent_after _ ops)
    (hundotted.packages path p hcached) (horder.packages path p hcached) hp hsource

/-- A package with two constants of its own type, one of another type and one without a type. -/
def levelTree : FileTree :=
  let text := "package a\n\nimport \"a.b\"\n\ntype L int\n\n" ++
    "const (\n\tLow L = 1\n\thigh L = 2\n\tX b.C = 3\n\tN = 4\n)\n"
  let other := "package b\n\ntype C int\n"
  ⟨[(["w", "a", "a.go"], Text.encode text), (["w", "a.b", "b.go"], Text.encode other)], [], []⟩

def levelSession : Session :=
  after (goSetup levelTree pairRoots ⟨false, false⟩) [.resolve "a"]

def groupNames (s : Session) (n : TypeName) (unexported : Bool) : Option (List String) :=
  (s.constGroup n unexported).toOption.map fun g => g.values.map fun v => v.1.full

theorem grouped_after_levels : exists p, levelSession.package? "a" = some p ∧
    p.kind.isSource = true ∧ levelSession.Grouped "a" p ∧
    levelSession.groupNames (.declared "a" "L") true = some ["a.Low", "a.high"] ∧
    levelSession.groupNames (.declared "a" "L") false = some ["a.Low"] := by
  have hfacts : (levelSession.package? "a").map (fun p => p.kind.isSource) = some true ∧
      levelSession.groupNames (.declared "a" "L") true = some ["a.Low", "a.high"] ∧
      levelSession.groupNames (.declared "a" "L") false = some ["a.Low"] := by
    decide +kernel
  obtain ⟨hkind, hgroups⟩ := hfacts
  obtain ⟨p, hp, hsource⟩ := Option.map_eq_some_iff.mp hkind
  exact ⟨p, hp, hsource,
    grouped_after levelTree pairRoots ⟨false, false⟩ [.resolve "a"] hp hsource, hgroups⟩

/-- The name `b.C` of the package `a` is written like the type `C` of the package `a.b`, and the
group that is asked for by it has the constant of that type. -/
theorem group_of_foreign_type : exists p c g, levelSession.package? "a" = some p ∧
    p.kind.isSource = true ∧ c ∈ p.consts ∧ c.type = .named (.declared "a.b" "C") ∧
    levelSession.constGroup (.declared "a" "b.C") true = .ok g ∧ g.Lists "a" c.name := by
  have hfacts : (levelSession.package? "a").map (fun p => (p.kind.isSource, p.consts.any fun c =>
        c.type.name?.map (fun n => (n.packagePath, n.name)) == some ("a.b", "C"))) =
        some (true, true) ∧
      (levelSession.definition? (.declared "a" "b.C")).map (·.isAlias) = some false := by
    decide +kernel
  obtain ⟨hpackage, hdefined⟩ := hfacts
  obtain ⟨p, hp, hboth⟩ := Option.map_eq_some_iff.mp hpackage
  obtain ⟨hsource, hany⟩ := Prod.mk.inj hboth
  obtain ⟨c, hc, hname⟩ := List.any_eq_true.mp hany
  obtain ⟨n, hn, hparts⟩ := Option.map_eq_some_iff.mp (eq_of_beq hname)
  obtain ⟨d, hd, halias⟩ := Option.map_eq_some_iff.mp hdefined
  have htype : c.type = .named (.declared "a.b" "C") := by
    obtain ⟨hpath, hlocal⟩ := Prod.mk.inj hparts
    rw [TypeName.eq_declared_of_packagePath hpath (by decide), hlocal] at hn
    cases hc' : c.type with
    | named m =>
        rw [hc'] at hn
        exact congrArg GoType.named (Option.some.inj hn)
    | _ =>
        rw [hc'] at hn
        cases hn
  refine ⟨p, c, _, hp, hsource, hc, htype, constGroup_eq_ok_iff.mpr ⟨d, p, hd, halias, hp, rfl⟩, ?_⟩
  have hwritten : TypeName.isType (.declared "a" "b.C") c.type = true :=
    TypeName.isType_iff.mpr ⟨_, htype, by decide⟩
  exact List.mem_map_of_mem (mem_constsOf_iff.mpr ⟨c, hc, hwritten, Or.inl rfl, rfl, rfl⟩)

end Session
end GoAtlas
