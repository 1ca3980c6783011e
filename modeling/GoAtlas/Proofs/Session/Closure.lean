import GoAtlas.Check.Go
import GoAtlas.Proofs.GoType
import GoAtlas.Proofs.Session.Consistency

/-!
# Closed packages

A resolved package is closed when every name in its types and constants is known to the session
and the invalid kind occurs in it only with an excuse.  What a session knows it keeps knowing,
so closed packages stay closed.
-/

namespace GoAtlas
namespace Session

/-- There is a reason why types may be invalid: hard errors are allowed, or a package was taken
on trust. -/
def Excused (s : Session) : Prop :=
  s.setup.options.allowHardErrors = true ∨
    exists path p, s.cache.get? path = some (.resolved p) ∧ p.isOpaque = true

def Knows (s : Session) (package name : String) : Prop :=
  exists p, s.cache.get? package = some (.resolved p) ∧
    (p.isOpaque = true ∨ exists d, p.type? name = some d ∧ d.isAlias = false)

/-- What is needed to keep knowledge: the setup and the resolved packages. -/
structure Retains (s t : Session) : Prop where
  setup : t.setup = s.setup
  resolved : forall path p, s.cache.get? path = some (.resolved p) ->
    t.cache.get? path = some (.resolved p)

theorem Grows.retains {s t : Session} (h : Grows s t) : Retains s t :=
  ⟨h.setup, fun _ _ => h.cached⟩

theorem Excused.retains {s t : Session} (h : s.Excused) (hst : Retains s t) : t.Excused := by
  rcases h with hoptions | ⟨path, p, hp, htrusted⟩
  · exact Or.inl (hst.setup ▸ hoptions)
  · exact Or.inr ⟨path, p, hst.resolved path p hp, htrusted⟩

theorem Knows.retains {s t : Session} {package name : String} (h : s.Knows package name)
    (hst : Retains s t) : t.Knows package name := by
  rcases h with ⟨p, hp, hname⟩
  exact ⟨p, hst.resolved package p hp, hname⟩

/-- A package that is remembered for `path` without loose ends. -/
structure Closed (s : Session) (path : String) (p : Package) : Prop where
  home : p.path = path
  names : forall name d, p.type? name = some d -> d.name = .declared path name
  types : forall name d, p.type? name = some d -> d.Within s.Excused s.Knows
  shapes : forall name d, p.type? name = some d -> d.isAlias = false ->
    d.underlying.name? = none
  consts : forall c, c ∈ p.consts -> c.type.Within s.Excused s.Knows
  trusted : p.isOpaque = true -> p.kind = .system ∧ forall name, p.type? name = none
  /-- No type of another package has the full name of a type that is not indexed. -/
  plain : p.kind.isSource = false -> forall name d, p.type? name = some d ->
    '.' ∉ path.toList ∧ '.' ∉ name.toList

theorem Closed.retains {s t : Session} {path : String} {p : Package} (h : s.Closed path p)
    (hst : Retains s t) : t.Closed path p where
  home := h.home
  names := h.names
  types name d hd := fun leaf hleaf => (h.types name d hd leaf hleaf).mono
    (fun hexcused => hexcused.retains hst) (fun _ _ hknows => hknows.retains hst)
  shapes := h.shapes
  consts c hc := (h.consts c hc).mono
    (fun hexcused => hexcused.retains hst) (fun _ _ hknows => hknows.retains hst)
  trusted := h.trusted
  plain := h.plain

theorem Closed.asType {s : Session} {path : String} {p : Package} (h : s.Closed path p)
    (hp : s.cache.get? path = some (.resolved p)) {name : String} {d : TypeDef}
    (hd : p.type? name = some d) : d.asType.Within s.Excused s.Knows := by
  unfold TypeDef.asType
  split
  · exact (GoType.within_def_iff.mp (h.types name d hd)).1
  · next halias =>
      rw [h.names name d hd, GoType.within_declared_iff]
      exact ⟨p, hp, Or.inr ⟨d, hd, eq_false_of_ne_true halias⟩⟩

/-- A session with the Go checker and the standard models, all of whose packages are closed. -/
structure Sound (s : Session) : Prop where
  checker : s.setup.checker = goChecker
  registry : s.setup.registry = Registry.standard
  packages : forall path p, s.cache.get? path = some (.resolved p) -> s.Closed path p

theorem Sound.congr {s t : Session} (h : s.Sound) (hsetup : t.setup = s.setup)
    (hcache : t.cache = s.cache) : t.Sound where
  checker := hsetup ▸ h.checker
  registry := hsetup ▸ h.registry
  packages path p hp := by
    rw [hcache] at hp
    exact (h.packages path p hp).retains ⟨hsetup, fun _ _ hq => hcache ▸ hq⟩

theorem Sound.remember {s t : Session} {path : String} {entry : CacheEntry} (h : s.Sound)
    (hnew : s.cache.get? path = none) (hsetup : t.setup = s.setup)
    (hcache : t.cache = s.cache.insert path entry)
    (hentry : forall p, entry = .resolved p -> Retains s t -> t.Closed path p) : t.Sound := by
  have hst : Retains s t := by
    refine ⟨hsetup, ?_⟩
    intro other p hp
    have hne : other ≠ path := by
      intro heq
      subst heq
      cases hnew.symm.trans hp
    rw [hcache]
    exact (Table.get?_insert_of_ne s.cache entry hne).trans hp
  refine ⟨hsetup ▸ h.checker, hsetup ▸ h.registry, ?_⟩
  intro other p hp
  rw [hcache, Table.get?_insert] at hp
  split at hp
  · next heq =>
      injection hp with hp
      exact heq ▸ hentry p hp hst
  · exact (h.packages other p hp).retains hst

theorem sound_start {setup : Setup} (hchecker : setup.checker = goChecker)
    (hregistry : setup.registry = Registry.standard) : (start setup).Sound where
  checker := hchecker
  registry := hregistry
  packages _ _ hp := by cases hp

end Session

/-!
# The standard models
-/

namespace CheckedPackage

def isOwn (path : String) (model : CheckedPackage) : GoType -> Bool
  | .basic .invalid => false
  | .named (.declared package name) =>
      package == path && (model.types.map fun d => d.name.name).contains name
  | _ => true

def isPlain (path : String) (model : CheckedPackage) (d : TypeDef) : Bool :=
  d.name.packagePath == path && !d.name.isBuiltin && !d.name.name.toList.contains '.' &&
    !d.isAlias && d.underlying.name?.isNone && d.leaves.all (model.isOwn path)

def isClosed (path : String) (model : CheckedPackage) : Bool :=
  !path.toList.contains '.' && decide ((model.types.map fun d => d.name.name).Nodup) &&
    model.types.all (model.isPlain path) &&
    model.consts.all fun c => c.type.leaves.all (model.isOwn path)

theorem isPlain_iff {path : String} {model : CheckedPackage} {d : TypeDef} :
    model.isPlain path d = true ↔
      d.name = .declared path d.name.name ∧ '.' ∉ d.name.name.toList ∧ d.isAlias = false ∧
        d.underlying.name? = none ∧
        forall leaf, leaf ∈ d.leaves -> model.isOwn path leaf = true := by
  unfold isPlain
  cases hname : d.name with
  | builtin name => simp [TypeName.isBuiltin]
  | declared package name =>
      simp [TypeName.isBuiltin, TypeName.packagePath, TypeName.name, and_assoc]

theorem isClosed_iff {path : String} {model : CheckedPackage} :
    model.isClosed path = true ↔
      '.' ∉ path.toList ∧ (model.types.map fun d => d.name.name).Nodup ∧
        (forall d, d ∈ model.types -> model.isPlain path d = true) ∧
        forall c, c ∈ model.consts ->
          forall leaf, leaf ∈ c.type.leaves -> model.isOwn path leaf = true := by
  unfold isClosed
  simp [and_assoc]

end CheckedPackage

namespace Registry

theorem isClosed_of_standard {path : String} {model : CheckedPackage}
    (h : standard.get? path = some model) : model.isClosed path = true := by
  unfold standard at h
  rw [Table.get?_ofList_iff (by decide)] at h
  simp only [List.mem_cons, List.not_mem_nil, or_false, Prod.mk.injEq] at h
  rcases h with ⟨rfl, rfl⟩ | ⟨rfl, rfl⟩ | ⟨rfl, rfl⟩ | ⟨rfl, rfl⟩ | ⟨rfl, rfl⟩
  · decide
  · decide
  · decide
  · decide
  · decide

end Registry

namespace Session

section Models

variable {s : Session} {path : String} {model : CheckedPackage} {p : Package}

theorem type?_of_model (h : model.isClosed path = true)
    (htypes : p.types = Package.typeTable model.types) {name : String} {d : TypeDef} :
    p.type? name = some d ↔ d ∈ model.types ∧ d.name.name = name := by
  unfold Package.type?
  rw [htypes]
  apply Package.get?_typeTable_of_nodup
  rw [List.map_map]
  exact (CheckedPackage.isClosed_iff.mp h).2.1

theorem allowed_of_isOwn (h : model.isClosed path = true)
    (hp : s.cache.get? path = some (.resolved p))
    (htypes : p.types = Package.typeTable model.types) {leaf : GoType}
    (hleaf : model.isOwn path leaf = true) : leaf.Allowed s.Excused s.Knows := by
  unfold GoType.Allowed
  split
  · cases hleaf
  · next package name =>
      unfold CheckedPackage.isOwn at hleaf
      simp only [Bool.and_eq_true, beq_iff_eq, List.contains_eq_mem, decide_eq_true_eq] at hleaf
      rcases hleaf with ⟨rfl, hname⟩
      rcases List.mem_map.mp hname with ⟨d, hd, rfl⟩
      have hplain := CheckedPackage.isPlain_iff.mp
        ((CheckedPackage.isClosed_iff.mp h).2.2.1 d hd)
      exact ⟨p, hp, Or.inr ⟨d, (type?_of_model h htypes).mpr ⟨hd, rfl⟩, hplain.2.2.1⟩⟩
  · trivial

theorem closed_of_model (h : model.isClosed path = true)
    (hp : s.cache.get? path = some (.resolved p)) (hpath : p.path = path)
    (htypes : p.types = Package.typeTable model.types) (hconsts : p.consts = model.consts)
    (htrusted : p.isOpaque = false) : s.Closed path p := by
  rcases CheckedPackage.isClosed_iff.mp h with ⟨hdot, _, hplain, hown⟩
  have hdef : forall name d, p.type? name = some d ->
      d.name.name = name ∧ model.isPlain path d = true := by
    intro name d hd
    rcases (type?_of_model h htypes).mp hd with ⟨hmem, hname⟩
    exact ⟨hname, hplain d hmem⟩
  exact
    { home := hpath
      names := by
        intro name d hd
        rcases hdef name d hd with ⟨rfl, hself⟩
        exact (CheckedPackage.isPlain_iff.mp hself).1
      types := by
        intro name d hd leaf hleaf
        have hplain := CheckedPackage.isPlain_iff.mp (hdef name d hd).2
        exact allowed_of_isOwn h hp htypes (hplain.2.2.2.2 leaf hleaf)
      shapes := by
        intro name d hd _
        exact (CheckedPackage.isPlain_iff.mp (hdef name d hd).2).2.2.2.1
      consts := by
        intro c hc leaf hleaf
        exact allowed_of_isOwn h hp htypes (hown c (hconsts ▸ hc) leaf hleaf)
      trusted := by
        intro htrue
        rw [htrusted] at htrue
        cases htrue
      plain := by
        intro _ name d hd
        rcases hdef name d hd with ⟨rfl, hself⟩
        exact ⟨hdot, (CheckedPackage.isPlain_iff.mp hself).2.1⟩ }

end Models

theorem closed_ofPath (s : Session) (path : String) (dir : Option Path) :
    s.Closed path { Package.ofPath path with dir := dir } where
  home := rfl
  names _ _ h := by cases h
  types _ _ h := by cases h
  shapes _ _ h := by cases h
  consts _ h := absurd h List.not_mem_nil
  trusted _ := ⟨rfl, fun _ => rfl⟩
  plain _ _ _ h := by cases h

theorem closed_systemPackage {s : Session} {path : String} {dir : Option Path}
    (hp : s.cache.get? path = some (.resolved (systemPackage Registry.standard path dir))) :
    s.Closed path (systemPackage Registry.standard path dir) := by
  unfold systemPackage at hp ⊢
  cases hmodel : Registry.standard.get? path with
  | none => exact closed_ofPath s path dir
  | some model =>
      rw [hmodel] at hp
      exact closed_of_model (Registry.isClosed_of_standard hmodel) hp rfl rfl rfl rfl

end Session
end GoAtlas
