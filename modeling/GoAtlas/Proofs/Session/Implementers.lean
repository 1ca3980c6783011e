import GoAtlas.Proofs.Session.ClosedWorld
import GoAtlas.Proofs.Session.MethodSets
import GoAtlas.Proofs.Session.PackageLaws
import GoAtlas.Proofs.Session.Stability

/-!
# Stable implementers

A search for the types that implement an interface is computed from what a session knows at the
time.  With the Go checker and the standard models it never has to be taken back: whatever is
resolved later, the same search finds the same types among those that were indexed before.
-/

namespace GoAtlas
namespace Session

/-!
# Names that last
-/

structure Standard (s : Session) : Prop where
  sound : s.Sound
  unbroken : s.Unbroken
  undotted : forall path p, s.cache.get? path = some (.resolved p) -> p.Undotted

theorem standard_after (tree : FileTree) (roots : SearchRoots) (options : Options)
    (ops : List Operation) : (after (goSetup tree roots options) ops).Standard where
  sound := sound_after tree roots options ops
  unbroken := unbroken_after rfl ops
  undotted _ _ hp := undotted_after tree roots options ops hp

/-- A known name without a dot: no package that is resolved later can give it another meaning. -/
def Firm (s : Session) (package name : String) : Prop :=
  s.Knows package name ∧ Source.Plain name

variable {s t : Session}

theorem Unbroken.definition_eq (h : s.Unbroken) {path name : String} {p : Package}
    (hp : s.cache.get? path = some (.resolved p)) (hname : Source.Plain name) :
    s.definition? (.declared path name) = p.type? name := by
  unfold definition?
  cases hd : s.index.get? (.declared path name) with
  | some d =>
      obtain ⟨q, hq, htype⟩ := h.type_of_index hname hd
      cases hp.symm.trans hq
      exact htype.symm
  | none =>
      show (s.package? path).bind (fun p => p.type? name) = p.type? name
      rw [package?_eq_some_iff.mpr hp]
      rfl

theorem Standard.territory (h : s.Standard) : Territory s.Firm s := by
  have htype : forall package name d, s.Firm package name ->
      s.definition? (.declared package name) = some d ->
      exists p, s.cache.get? package = some (.resolved p) ∧ p.type? name = some d ∧
        d.isAlias = false := by
    rintro package name d ⟨⟨p, hp, hknown⟩, hplain⟩ hd
    rw [h.unbroken.definition_eq hp hplain] at hd
    rcases hknown with htrusted | ⟨d', hd', halias⟩
    · cases (((h.sound.packages package p hp).trusted htrusted).2 name).symm.trans hd
    · cases hd.symm.trans hd'
      exact ⟨p, hp, hd, halias⟩
  constructor
  · intro package name d hfirm hd
    obtain ⟨p, hp, hd, _⟩ := htype package name d hfirm hd
    exact (h.sound.packages package p hp).names name d hd
  · intro package name d hfirm hd
    obtain ⟨_, _, _, halias⟩ := htype package name d hfirm hd
    exact halias
  · intro package name d hfirm hd
    obtain ⟨p, hp, hd, _⟩ := htype package name d hfirm hd
    have hwithin := (GoType.within_def_iff.mp ((h.sound.packages package p hp).types name d hd)).1
    exact (hwithin.and (h.undotted package p hp name d hd).underlying).mono
      (fun _ => trivial) fun _ _ h => h

theorem Standard.agree (hs : s.Standard) (ht : t.Standard) (hst : Grows s t) :
    Agree s.Firm s t := by
  rintro package name ⟨⟨p, hp, _⟩, hplain⟩
  rw [hs.unbroken.definition_eq hp hplain, ht.unbroken.definition_eq (hst.cached hp) hplain]

/-!
# Definitions that last
-/

theorem Standard.package_of_definition (h : s.Standard) {n : TypeName} {d : TypeDef}
    (hd : s.definition? n = some d) :
    exists path p name, s.cache.get? path = some (.resolved p) ∧ p.type? name = some d := by
  unfold definition? at hd
  split at hd
  · next hfound =>
      cases hd
      have hmem : d ∈ s.index.definitions := Table.mem_values_iff.mpr ⟨_, hfound⟩
      obtain ⟨path, p, hp, _, hvalue⟩ := h.unbroken.consistent.mem_definitions_iff.mp hmem
      obtain ⟨name, hname⟩ := Table.mem_values_iff.mp hvalue
      exact ⟨path, p, name, hp, hname⟩
  · obtain ⟨p, hp, htype⟩ := Option.bind_eq_some_iff.mp hd
    exact ⟨n.packagePath, p, n.name, package?_eq_some_iff.mp hp, htype⟩

theorem Standard.asType_of_definition (h : s.Standard) {n : TypeName} {d : TypeDef}
    (hd : s.definition? n = some d) : d.asType.Within True s.Firm := by
  obtain ⟨path, p, name, hp, htype⟩ := h.package_of_definition hd
  have hwithin := (h.sound.packages path p hp).asType hp htype
  exact (hwithin.and (h.undotted path p hp name d htype).asType).mono (fun _ => trivial)
    fun _ _ h => h

theorem Standard.plain (h : s.Standard) {path name : String} {p : Package} {d : TypeDef}
    (hp : s.cache.get? path = some (.resolved p)) (hd : p.type? name = some d) :
    Source.Plain name := by
  cases hsource : p.kind.isSource with
  | true => exact h.unbroken.plain path p name d hp hsource hd
  | false => exact ((h.sound.packages path p hp).plain hsource name d hd).2

theorem Standard.definition_lasts (hs : s.Standard) (ht : t.Standard) (hst : Grows s t)
    {n : TypeName} {d : TypeDef} (hd : s.definition? n = some d) : t.definition? n = some d := by
  unfold definition? at hd
  split at hd
  · next hfound =>
      cases hd
      unfold definition?
      rw [hst.index n d hfound]
  · obtain ⟨p, hp, htype⟩ := Option.bind_eq_some_iff.mp hd
    have hcached := package?_eq_some_iff.mp hp
    cases n with
    | builtin word =>
        have hvalid := hs.unbroken.valid _ _ hcached
        exact absurd rfl (Provenance.ne_empty_of_isValid hvalid)
    | declared path name =>
        have hplain : Source.Plain name := hs.plain hcached htype
        exact (ht.unbroken.definition_eq (hst.cached hcached) hplain).trans htype

/-!
# Indexed types
-/

theorem definitions_eq_filter (ht : t.Consistent) (hs : s.Consistent) (hst : Grows s t) :
    s.index.definitions = t.index.definitions.filter fun d => s.index.contains d.name := by
  have hextends : forall full d, s.index.table.get? full = some d ->
      t.index.table.get? full = some d := by
    intro full d hd
    have hkey := hs.keys full d hd
    subst hkey
    exact hst.index d.name d hd
  unfold Index.definitions Table.values
  rw [Table.entries_eq_filter hextends, List.filter_map]
  congr 1
  refine List.filter_congr ?_
  rintro ⟨full, d⟩ hentry
  have hkey := ht.keys full d (Table.mem_entries_iff.mp hentry)
  subst hkey
  rfl

theorem Standard.firm_of_indexed (h : s.Standard) {d : TypeDef}
    (hd : d ∈ s.index.definitions) (halias : d.isAlias = false) :
    (GoType.named d.name).Within True s.Firm := by
  obtain ⟨path, p, hp, hsource, hvalue⟩ := h.unbroken.consistent.mem_definitions_iff.mp hd
  obtain ⟨name, hname⟩ := Table.mem_values_iff.mp hvalue
  rw [h.unbroken.consistent.types path p name d hp hsource hname, GoType.within_declared_iff]
  exact ⟨⟨p, hp, Or.inr ⟨d, hname, halias⟩⟩, h.plain hp hname⟩

theorem implementersOf_eq_filter (hs : s.Standard) (ht : t.Standard) (hst : Grows s t)
    (iface : TypeName) (required : MethodSet) :
    s.implementersOf iface required =
      (t.implementersOf iface required).filter fun f => s.index.contains f.1 := by
  have hdefinitions := definitions_eq_filter ht.unbroken.consistent hs.unbroken.consistent hst
  -- Old types are judged as before, and the later search looks at them in the same order.
  have hsame : s.implementersOf iface required = s.index.definitions.filterMap fun d =>
      if d.name == iface || d.isAlias || d.isInterface then none
      else (t.implementation? d.name required).map fun form => (d.name, form) := by
    refine List.filterMap_congr fun d hd => ?_
    cases halias : d.isAlias with
    | true => simp
    | false =>
        rw [implementation_eq hs.territory (hs.agree ht hst) (hs.firm_of_indexed hd halias)]
  rw [hsame, hdefinitions, List.filterMap_filter]
  unfold implementersOf
  rw [List.filter_filterMap]
  refine List.filterMap_congr fun d _ => ?_
  cases hskipped : (d.name == iface || d.isAlias || d.isInterface) with
  | true => simp
  | false =>
      cases t.implementation? d.name required with
      | none => simp
      | some form => simp [Option.filter_some]

/-!
# The search
-/

def Locates (s : Session) (path : String) : Prop :=
  (s.package? path).isSome = true ∨ exists package, ((resolve path).run s).1 = .ok package

def Lists (s : Session) (iface : TypeName) (found : List (TypeName × Implementation)) : Prop :=
  exists d required, s.definition? iface = some d ∧
    s.interfaceMethods? d.asType = some required ∧ found = s.implementersOf iface required

theorem searched_eq_ok_iff {iface : TypeName} {found : List (TypeName × Implementation)} :
    s.searched iface = .ok found ↔ s.Lists iface found := by
  unfold searched
  cases hd : s.definition? iface with
  | none =>
      constructor
      · intro h
        cases h
      · rintro ⟨d, required, hsome, _⟩
        cases hd.symm.trans hsome
  | some d =>
      dsimp only
      cases hmethods : s.interfaceMethods? d.asType with
      | none =>
          constructor
          · intro h
            cases h
          · rintro ⟨d', required, hsome, hrequired, _⟩
            cases hd.symm.trans hsome
            cases hmethods.symm.trans hrequired
      | some required =>
          constructor
          · rintro ⟨⟩
            exact ⟨d, required, hd, hmethods, rfl⟩
          · rintro ⟨d', required', hsome, hrequired, rfl⟩
            cases hd.symm.trans hsome
            cases hmethods.symm.trans hrequired
            rfl

theorem run_findImplementers_iff {iface : TypeName}
    {found : List (TypeName × Implementation)} :
    ((findImplementers iface).run s).1 = .ok found ↔ s.Locates iface.packagePath ∧
      Lists ((findImplementers iface).run s).2 iface found := by
  rw [run_findImplementers_eq]
  unfold Locates
  cases hp : s.package? iface.packagePath with
  | none =>
      rw [Option.isNone_none, if_pos rfl]
      rcases (resolve iface.packagePath).run s with ⟨r, t⟩
      cases r with
      | ok package => simp [searched_eq_ok_iff]
      | error e => simp
  | some p =>
      rw [Option.isNone_some, if_neg Bool.false_ne_true]
      simp [searched_eq_ok_iff]

theorem remembered_of_requests {bound : Nat} {path : String} {origin : Option Path}
    {package : Option Package} (h : Requests path origin s bound (.ok package) t) :
    exists entry, t.cache.get? path = some entry ∧ remembered path entry = .ok package := by
  generalize hr : (Except.ok package : Except Error (Option Package)) = r at h
  cases h with
  | @cached _ entry hentry => exact ⟨entry, hentry, rfl⟩
  | cyclic hnew hpending => cases hr
  | exhausted hnew => cases hr
  | opened hnew hopens =>
      subst hr
      cases hopens with
      | absent hfound hkind => exact ⟨.absent, Table.get?_insert_self _ _ _, rfl⟩
      | system hfound hkind => exact ⟨.resolved _, Table.get?_insert_self _ _ _, rfl⟩
      | resolved hsource hload => exact ⟨.resolved _, Table.get?_insert_self _ _ _, rfl⟩

theorem Locates.remembered {iface : TypeName} (h : s.Locates iface.packagePath) :
    exists entry package,
      ((findImplementers iface).run s).2.cache.get? iface.packagePath = some entry ∧
        remembered iface.packagePath entry = .ok package := by
  rw [run_findImplementers]
  cases hp : s.package? iface.packagePath with
  | some p => exact ⟨.resolved p, some p, package?_eq_some_iff.mp hp, rfl⟩
  | none =>
      unfold Locates at h
      rw [hp] at h
      rcases h with hsome | ⟨package, hok⟩
      · cases hsome
      · rw [run_resolve, run_resolveFrom] at hok
        unfold afterRequest
        rw [run_resolveFrom]
        obtain ⟨entry, hentry, hremembered⟩ := remembered_of_requests
          (requests_of_run (Prod.ext hok rfl))
        exact ⟨entry, package, hentry, hremembered⟩

theorem locates_of_remembered {path : String} {entry : CacheEntry} {package : Option Package}
    (hentry : t.cache.get? path = some entry) (h : remembered path entry = .ok package) :
    t.Locates path := by
  refine Or.inr ⟨package, ?_⟩
  rw [run_resolve, run_resolveFrom_cached hentry]
  exact h

/-- What a search finds among the types that were indexed before stays the same. -/
theorem Lists.later (hs : s.Standard) (ht : t.Standard) (hst : Grows s t) {iface : TypeName}
    {found : List (TypeName × Implementation)} (h : s.Lists iface found) :
    exists later, t.Lists iface later ∧
      (later.filter fun f => s.index.contains f.1) = found := by
  obtain ⟨d, required, hd, hrequired, rfl⟩ := h
  refine ⟨t.implementersOf iface required, ⟨d, required, ?_, ?_, rfl⟩, ?_⟩
  · exact hs.definition_lasts ht hst hd
  · rw [← interfaceMethods_eq hs.territory (hs.agree ht hst) (hs.asType_of_definition hd)]
    exact hrequired
  · exact (implementersOf_eq_filter hs ht hst iface required).symm

/-- Later operations do not change what a search finds among the types that were indexed when
it ended. -/
theorem findImplementers_lasts (tree : FileTree) (roots : SearchRoots) (options : Options)
    (ops more : List Operation) (iface : TypeName) (found : List (TypeName × Implementation))
    (h : ((findImplementers iface).run (after (goSetup tree roots options) ops)).1 = .ok found) :
    exists later,
      ((findImplementers iface).run (after (goSetup tree roots options)
        (ops ++ .findImplementers iface :: more))).1 = .ok later ∧
      (later.filter fun f => (after (goSetup tree roots options)
        (ops ++ [.findImplementers iface])).index.contains f.1) = found := by
  -- The sessions in which the two searches look, after the requests they make.
  have hfirst : after (goSetup tree roots options) (ops ++ [.findImplementers iface]) =
      ((findImplementers iface).run (after (goSetup tree roots options) ops)).2 :=
    after_append _ _ _
  have hsecond : after (goSetup tree roots options)
      (ops ++ .findImplementers iface :: more ++ [.findImplementers iface]) =
      ((findImplementers iface).run (after (goSetup tree roots options)
        (ops ++ .findImplementers iface :: more))).2 :=
    after_append _ _ _
  have hgrows : Grows (after (goSetup tree roots options) (ops ++ [.findImplementers iface]))
      (after (goSetup tree roots options) (ops ++ .findImplementers iface :: more)) := by
    have happend : ops ++ .findImplementers iface :: more =
        (ops ++ [.findImplementers iface]) ++ more := List.append_cons ..
    rw [happend]
    exact grows_after _ _ _
  obtain ⟨hlocates, hlists⟩ := run_findImplementers_iff.mp h
  rw [← hfirst] at hlists
  obtain ⟨later, hlater, hfilter⟩ := hlists.later (standard_after tree roots options _)
    (standard_after tree roots options _) (hgrows.trans (grows_after _ _ [.findImplementers iface]))
  obtain ⟨entry, package, hentry, hremembered⟩ := hlocates.remembered
  rw [← hfirst] at hentry
  refine ⟨later, run_findImplementers_iff.mpr ⟨?_, hsecond ▸ hlater⟩, hfilter⟩
  exact locates_of_remembered (hgrows.cached hentry) hremembered

/-- Package `a` declares the interface `S` and two types that implement it: `V` by itself and
`P` by embedding `b.E`.  The type `c.W` implements it as well. -/
def shapeTree : FileTree :=
  let shapes := "package a\n\nimport \"b\"\n\ntype S interface\x7b M() \x7d\n\n" ++
    "type V int\n\nfunc (V) M() \x7b\x7d\n\ntype P struct\x7b b.E \x7d\n"
  let base := "package b\n\ntype E int\n\nfunc (*E) M() \x7b\x7d\n"
  let extra := "package c\n\ntype W string\n\nfunc (W) M() \x7b\x7d\n"
  ⟨[(["w", "a", "a.go"], Text.encode shapes), (["w", "b", "b.go"], Text.encode base),
    (["w", "c", "c.go"], Text.encode extra)], [], []⟩

def shapeRoots : SearchRoots := ⟨some ⟨"/w"⟩, none, "vendor"⟩

def shapeSession (ops : List Operation) : Session :=
  after (goSetup shapeTree shapeRoots ⟨false, false⟩) ops

def written (found : List (TypeName × Implementation)) : List (String × Implementation) :=
  found.map fun f => (f.1.full, f.2)

/-- A search for `a.S` is repeated when the package `c` has been resolved as well. -/
theorem findImplementers_lasts_shapes : exists found later,
    ((findImplementers (.declared "a" "S")).run (shapeSession [])).1 = .ok found ∧
    ((findImplementers (.declared "a" "S")).run (shapeSession
      [.findImplementers (.declared "a" "S"), .resolve "c"])).1 = .ok later ∧
    (later.filter fun f => (shapeSession
      [.findImplementers (.declared "a" "S")]).index.contains f.1) = found ∧
    written found = [("a.P", .pointer), ("a.V", .value), ("b.E", .pointer)] ∧
    written later = [("a.P", .pointer), ("a.V", .value), ("b.E", .pointer), ("c.W", .value)] := by
  have hfound : (((findImplementers (.declared "a" "S")).run
      (shapeSession [])).1.toOption.map written) =
      some [("a.P", .pointer), ("a.V", .value), ("b.E", .pointer)] := by
    decide +kernel
  have hmore : (((findImplementers (.declared "a" "S")).run (shapeSession
      [.findImplementers (.declared "a" "S"), .resolve "c"])).1.toOption.map written) =
      some [("a.P", .pointer), ("a.V", .value), ("b.E", .pointer), ("c.W", .value)] := by
    decide +kernel
  obtain ⟨found, hsome, hwritten⟩ := Option.map_eq_some_iff.mp hfound
  obtain ⟨later, hlater, hfilter⟩ := findImplementers_lasts shapeTree shapeRoots ⟨false, false⟩ []
    [.resolve "c"] (.declared "a" "S") found (ok_of_toOption hsome)
  obtain ⟨last, hlast, hwritten'⟩ := Option.map_eq_some_iff.mp hmore
  cases (ok_of_toOption hlast).symm.trans hlater
  exact ⟨found, later, ok_of_toOption hsome, hlater, hfilter, hwritten, hwritten'⟩

end Session
end GoAtlas
