import GoAtlas.Proofs.Session.Flattening
import GoAtlas.Proofs.Session.Shuffled
import GoAtlas.Proofs.Session.Soundness

/-!
# The order of embedded types

An interface has the same methods in whatever order it, and every interface on the way, writes
what it embeds.  Only which of several signatures a method gets depends on that order, so nothing
does when all interfaces that declare the method agree on it.
-/

namespace GoAtlas
namespace Session

variable {s t : Session}

/-!
# Methods in any order
-/

def Agreed (s : Session) (type : GoType) (method : String) : Prop :=
  forall one other signature signature', s.Reaches type one -> s.Reaches type other ->
    s.Declares one method signature -> s.Declares other method signature' ->
      (signature == signature') = true

/-- How the methods that were found in an interface type depend on its definition: they are those
of all interfaces that it reaches, and the order of embedded types is of no account for methods
that all of them agree on. -/
structure Flattened (s : Session) (type : GoType) (found : MethodSet) : Prop where
  names : forall method, found.contains method = true ↔
    exists other signature, s.Reaches type other ∧ s.Declares other method signature
  signatures : forall method signature, found.get? method = some signature ->
    exists other, s.Reaches type other ∧ s.Declares other method signature
  orderless : forall t type', s.Shuffled t -> type.Shuffled type' -> t.Legible type' ->
    exists found', t.interfaceMethods? type' = some found' ∧
      forall method, s.Agreed type method ->
        Option.Rel (fun a b => (a == b) = true) (found.get? method) (found'.get? method)

theorem interfaceMethods_flattened (s : Session) (hunlooped : s.Unlooped) (type : GoType)
    (hlegible : s.Legible type) (hshows : exists methods embedded, s.Shows type methods embedded) :
    exists found, s.interfaceMethods? type = some found ∧ s.Flattened type found := by
  obtain ⟨methods, embedded, hshows⟩ := hshows
  obtain ⟨found, hfound, hnames, hsignatures⟩ :=
    interfaceMethods_of_reaches hunlooped hlegible hshows
  refine ⟨found, hfound, hnames, hsignatures, ?_⟩
  intro t type' hst htype hlegible'
  obtain ⟨embedded', hshows', _⟩ := hst.symm.shows htype.symm hshows
  obtain ⟨found', hfound', hnames', hsignatures'⟩ :=
    interfaceMethods_of_reaches (hst.unlooped hunlooped) hlegible' hshows'
  refine ⟨found', hfound', ?_⟩
  intro method hagreed
  cases hget : found.get? method with
  | none =>
      cases hget' : found'.get? method with
      | none => exact Option.Rel.none
      | some signature =>
          obtain ⟨other, hreach, hdeclares⟩ :=
            hst.declares htype (hsignatures' method signature hget')
          have hcontains := (hnames method).mpr ⟨other, signature, hreach, hdeclares⟩
          obtain ⟨_, hsome⟩ := Table.contains_iff.mp hcontains
          cases hget.symm.trans hsome
  | some signature =>
      obtain ⟨one, hone, hdeclared⟩ := hsignatures method signature hget
      obtain ⟨one', hone', hdeclared'⟩ :=
        hst.symm.declares htype.symm ⟨one, hone, hdeclared⟩
      have hcontains := (hnames' method).mpr ⟨one', signature, hone', hdeclared'⟩
      obtain ⟨signature', hget'⟩ := Table.contains_iff.mp hcontains
      obtain ⟨other, hreach, hdeclares⟩ :=
        hst.declares htype (hsignatures' method signature' hget')
      rw [hget']
      exact Option.Rel.some (hagreed one other signature signature' hone hreach hdeclared hdeclares)

/-!
# Ready-made packages

Without search roots a session finds nothing but the packages of its registry.
-/

def typesOnly (path : String) (types : List TypeDef) : CheckedPackage :=
  { CheckedPackage.bare path with types := types }

def servedSetup (models : List (String × List TypeDef)) : Setup :=
  ⟨⟨[], [], []⟩, SearchRoots.defaults, Options.defaults, goChecker,
    Table.ofList (models.map fun m => (m.1, typesOnly m.1 m.2))⟩

def served (models : List (String × List TypeDef)) : Session :=
  after (servedSetup models) (models.map fun m => .resolve m.1)

theorem perform_resolve_model {models : List (String × List TypeDef)} {path : String}
    (hsetup : s.setup = servedSetup models) (hvalid : Provenance.isValid path = true)
    (hnew : ¬ s.Held path) {model : CheckedPackage}
    (hmodel : (servedSetup models).registry.get? path = some model) :
    ((Operation.resolve path).perform s).setup = servedSetup models ∧
      ((Operation.resolve path).perform s).pending = s.pending ∧
      ((Operation.resolve path).perform s).index = s.index ∧
      ((Operation.resolve path).perform s).cache = s.cache.insert path
        (.resolved (Package.ofChecked path .system none model)) := by
  have hfound : Provenance.resolve s.setup.tree s.setup.roots path (Operation.home s path) =
      .ok ⟨.absent, none⟩ := by
    unfold Provenance.resolve Provenance.validate Operation.home
    rw [hsetup, if_pos hvalid]
    rfl
  have hkind : effectiveKind s.setup.registry path .absent = .system := by
    unfold effectiveKind Table.contains
    rw [hsetup, hmodel]
    rfl
  have hsystem : systemPackage s.setup.registry path none =
      Package.ofChecked path .system none model := by
    unfold systemPackage
    rw [hsetup, hmodel]
    rfl
  have hsource := sourceOf?_of_other (s := s.countRequest) hfound hkind rfl
  have hrun : forall {r : Except Error (Option Package)} {t : Session},
      Requests path (Operation.home s path) s (s.setup.tree.importBound + 1) r t ->
      t = (s.countRequest.recordKind path .system).remember path
        (.resolved (Package.ofChecked path .system none model)) := by
    intro r t h
    cases h with
    | cached hentry => exact absurd (Or.inl ⟨_, hentry⟩) hnew
    | cyclic _ hpending => exact absurd (Or.inr hpending) hnew
    | opened _ hopens =>
        cases hopens with
        | misnamed hother => cases hfound.symm.trans hother
        | absent hother hnone =>
            cases hfound.symm.trans hother
            cases hkind.symm.trans hnone
        | system hother _ =>
            cases hfound.symm.trans hother
            rw [← hsystem]
            rfl
        | broken hother => cases hsource.symm.trans hother
        | failed hother => cases hsource.symm.trans hother
        | resolved hother => cases hsource.symm.trans hother
  have hperform : (Operation.resolve path).perform s =
      (s.countRequest.recordKind path .system).remember path
        (.resolved (Package.ofChecked path .system none model)) := by
    show ((resolve path).run s).2 = _
    rw [run_resolve, run_resolveFrom]
    exact hrun (requests_of_run rfl)
  rw [hperform]
  exact ⟨hsetup, rfl, rfl, rfl⟩

/-- Paths are valid, and paths and the names at each of them are distinct. -/
structure Servable (models : List (String × List TypeDef)) : Prop where
  valid : forall m, m ∈ models -> Provenance.isValid m.1 = true
  paths : (models.map (·.1)).Nodup
  names : forall m, m ∈ models -> (m.2.map fun d => d.name.name).Nodup

/-- What is remembered of a path after its ready-made package was asked for. -/
def servedEntry (m : String × List TypeDef) : CacheEntry :=
  .resolved (Package.ofChecked m.1 .system none (typesOnly m.1 m.2))

theorem get?_registry {models : List (String × List TypeDef)} (h : Servable models)
    {m : String × List TypeDef} (hm : m ∈ models) :
    (servedSetup models).registry.get? m.1 = some (typesOnly m.1 m.2) := by
  refine (Table.get?_ofList_iff ?_).mpr (List.mem_map_of_mem hm)
  rw [List.map_map]
  exact h.paths

theorem perform_models {models rest : List (String × List TypeDef)} (h : Servable models)
    (hrest : forall m, m ∈ rest -> m ∈ models) (hnodup : (rest.map (·.1)).Nodup)
    (hsetup : s.setup = servedSetup models) (hpending : s.pending = [])
    (hnew : forall m, m ∈ rest -> s.cache.get? m.1 = none) :
    let t := (rest.map fun m => Operation.resolve m.1).foldl (fun s op => op.perform s) s
    t.index = s.index ∧ forall path entry, t.cache.get? path = some entry ↔
      s.cache.get? path = some entry ∨ exists m, m ∈ rest ∧ m.1 = path ∧ servedEntry m = entry := by
  induction rest generalizing s with
  | nil => simp
  | cons m rest ih =>
      rw [List.forall_mem_cons] at hrest hnew
      rw [List.map_cons, List.nodup_cons] at hnodup
      have hfresh : ¬ s.Held m.1 := not_held_iff.mpr ⟨hnew.1, by simp [hpending]⟩
      obtain ⟨hsetup', hpending', hindex, hcache⟩ :=
        perform_resolve_model hsetup (h.valid m hrest.1) hfresh (get?_registry h hrest.1)
      have hnext : forall n, n ∈ rest ->
          ((Operation.resolve m.1).perform s).cache.get? n.1 = none := by
        intro n hn
        have hne : n.1 ≠ m.1 := fun heq => hnodup.1 (heq ▸ List.mem_map_of_mem hn)
        rw [hcache, Table.get?_insert_of_ne _ _ hne]
        exact hnew.2 n hn
      obtain ⟨hindex', hentries⟩ :=
        ih hrest.2 hnodup.2 hsetup' (hpending'.trans hpending) hnext
      refine ⟨hindex'.trans hindex, ?_⟩
      intro path entry
      refine (hentries path entry).trans ?_
      rw [hcache, Table.get?_insert]
      simp only [List.mem_cons]
      split
      · next heq =>
          subst heq
          rw [hnew.1]
          constructor
          · rintro (hentry | ⟨n, hn, hpath, hentry⟩)
            · cases hentry
              exact Or.inr ⟨m, Or.inl rfl, rfl, rfl⟩
            · exact absurd (hpath ▸ List.mem_map_of_mem hn) hnodup.1
          · rintro (hentry | ⟨n, rfl | hn, hpath, hentry⟩)
            · cases hentry
            · exact Or.inl (congrArg some hentry)
            · exact absurd (hpath ▸ List.mem_map_of_mem hn) hnodup.1
      · next hne =>
          constructor
          · rintro (hentry | ⟨n, hn, hn'⟩)
            · exact Or.inl hentry
            · exact Or.inr ⟨n, Or.inr hn, hn'⟩
          · rintro (hentry | ⟨n, rfl | hn, hpath, hentry⟩)
            · exact Or.inl hentry
            · exact absurd hpath.symm hne
            · exact Or.inr ⟨n, hn, hpath, hentry⟩

theorem definition?_served_iff {models : List (String × List TypeDef)} (h : Servable models)
    {n : TypeName} {d : TypeDef} : (served models).definition? n = some d ↔
      exists m, m ∈ models ∧ m.1 = n.packagePath ∧ d ∈ m.2 ∧ d.name.name = n.name := by
  obtain ⟨hindex, hentries⟩ := perform_models h (fun _ hm => hm) h.paths (s := start _) rfl rfl
    (fun _ _ => rfl)
  change (served models).index = Index.empty at hindex
  have htable : forall m, m ∈ models -> forall name,
      (Package.typeTable m.2).get? name = some d ↔ d ∈ m.2 ∧ d.name.name = name := by
    intro m hm name
    unfold Package.typeTable
    rw [Table.get?_ofList_iff (by rw [List.map_map]; exact h.names m hm), List.mem_map]
    constructor
    · rintro ⟨e, he, heq⟩
      cases heq
      exact ⟨he, rfl⟩
    · rintro ⟨hd, rfl⟩
      exact ⟨d, hd, rfl⟩
  have hlookup : (served models).definition? n =
      ((served models).package? n.packagePath).bind fun p => p.type? n.name := by
    unfold definition?
    rw [hindex]
    rfl
  rw [hlookup, Option.bind_eq_some_iff]
  constructor
  · rintro ⟨p, hp, hd⟩
    rcases (hentries _ _).mp (package?_eq_some_iff.mp hp) with hnone | ⟨m, hm, hpath, hentry⟩
    · cases hnone
    · cases hentry
      exact ⟨m, hm, hpath, (htable m hm n.name).mp hd⟩
  · rintro ⟨m, hm, hpath, hd⟩
    refine ⟨_, package?_eq_some_iff.mpr ((hentries _ _).mpr (Or.inr ⟨m, hm, hpath, rfl⟩)), ?_⟩
    exact (htable m hm n.name).mpr hd

/-- Aliases that lead to names of ever lower rank do not come back. -/
theorem unlooped_of_rank (rank : TypeName -> Nat)
    (h : forall name d, s.typeDef? name = some d -> d.isAlias = true ->
      exists next, d.underlying = .named next ∧ rank next < rank name) : s.Unlooped := by
  have hlower : forall {name : TypeName} {type : GoType},
      Relation.TransGen s.Exposes (.named name) type ->
      exists next, type = .named next ∧ rank next < rank name := by
    intro name type hpath
    induction hpath with
    | single hstep =>
        obtain ⟨d, hd, halias, hunderlying⟩ := exposes_of_named hstep
        obtain ⟨next, hnext, hrank⟩ := h name d hd halias
        exact ⟨next, hunderlying.symm.trans hnext, hrank⟩
    | tail _ hstep ih =>
        obtain ⟨mid, rfl, hmid⟩ := ih
        obtain ⟨d, hd, halias, hunderlying⟩ := exposes_of_named hstep
        obtain ⟨next, hnext, hrank⟩ := h mid d hd halias
        exact ⟨next, hunderlying.symm.trans hnext, Nat.lt_trans hrank hmid⟩
  intro name d _ _ hloop
  obtain ⟨next, hnext, hrank⟩ := hlower hloop
  cases hnext
  exact Nat.lt_irrefl _ hrank

theorem unlooped_served {models : List (String × List TypeDef)} (h : Servable models)
    (rank : TypeName -> Nat)
    (hrank : forall m, m ∈ models -> forall d, d ∈ m.2 -> d.isAlias = true ->
      exists next, d.underlying = .named next ∧ rank next < rank (.declared m.1 d.name.name)) :
    (served models).Unlooped := by
  refine unlooped_of_rank rank ?_
  intro name d hd halias
  cases name with
  | builtin word =>
      rw [typeDef_of_builtin hd] at halias
      cases halias
  | declared package name =>
      obtain ⟨m, hm, rfl, hmem, rfl⟩ := (definition?_served_iff h).mp hd
      exact hrank m hm d hmem halias

def Local (package : String) (type : GoType) : Prop :=
  exists name, type = .named (.declared package name)

theorem legible_of_local {package : String} {root : GoType} (hroot : Local package root)
    (hrenames : forall type target, Local package type -> s.Renames type target ->
      Local package target)
    (hembeds : forall name methods embedded elem,
      s.interfaceOf? (.declared package name) = some (methods, embedded) -> elem ∈ embedded ->
        Local package elem) : s.Legible root := by
  have hpath : forall {steps : Nat} {type target : GoType}, s.AliasPath steps type target ->
      Local package type -> Local package target := by
    intro steps type target hway
    induction hway with
    | here type => exact id
    | step hstep _ ih => exact fun htype => ih (hrenames _ _ htype hstep)
  have hreach : forall {type : GoType}, s.Reaches root type -> Local package type := by
    intro type hway
    induction hway with
    | refl => exact hroot
    | tail _ hstep ih =>
        obtain ⟨methods, embedded, ⟨steps, target, _, hway, htarget⟩, helem⟩ := hstep
        obtain ⟨name, rfl⟩ := hpath hway ih
        rcases htarget with hinterface | ⟨other, hother, hiface⟩
        · cases hinterface
        · cases hother
          exact hembeds name methods embedded _ hiface helem
  have hend : forall {type : GoType}, s.Reaches root type -> Local package (s.unalias type) := by
    intro type hway
    obtain ⟨steps, _, haliases⟩ := s.aliasPath_unaliasWithin aliasLimit type
    exact hpath haliases (hreach hway)
  intro type other name name' htype hother hname hname' hfull
  obtain ⟨local1, hlocal⟩ := hend htype
  obtain ⟨local2, hlocal'⟩ := hend hother
  cases hname.symm.trans hlocal
  cases hname'.symm.trans hlocal'
  rw [TypeName.eq_of_full_declared hfull]

/-!
# A diamond with a cycle
-/

def plainMethod (name : String) : InterfaceMethod GoType := ⟨name, ⟨[], [], false⟩⟩

def named (package name : String) : GoType := .named (.declared package name)

def aliasDef (package name : String) (target : GoType) : TypeDef :=
  { TypeDef.plain (.declared package name) target with isAlias := true }

/-- `W` embeds `R` and `RW`, and `RW` embeds `R` and, under the name of an alias, `W`. -/
def ringModels : List (String × List TypeDef) :=
  [("a",
    [Registry.interfaceDef "a" "R" [plainMethod "Read"] [],
      Registry.interfaceDef "a" "W" [plainMethod "Write"] [named "a" "R", named "a" "RW"],
      Registry.interfaceDef "a" "RW" [] [named "a" "R", named "a" "V"],
      aliasDef "a" "V" (named "a" "W")])]

theorem servable_ring : Servable ringModels where
  valid := by decide +kernel
  paths := by decide
  names := by decide

theorem definition_ring {name : TypeName} {d : TypeDef}
    (h : (served ringModels).typeDef? name = some d) :
    d = TypeDef.plain name GoType.errorInterface ∨ name = d.name ∧
      (d = Registry.interfaceDef "a" "R" [plainMethod "Read"] [] ∨
        d = Registry.interfaceDef "a" "W" [plainMethod "Write"] [named "a" "R", named "a" "RW"] ∨
        d = Registry.interfaceDef "a" "RW" [] [named "a" "R", named "a" "V"] ∨
        d = aliasDef "a" "V" (named "a" "W")) := by
  cases name with
  | builtin word => exact Or.inl (typeDef_of_builtin h)
  | declared package name =>
      obtain ⟨m, hm, hpath, hd, hname⟩ := (definition?_served_iff servable_ring).mp h
      rw [List.mem_singleton.mp hm] at hpath hd
      cases hpath
      cases hname
      refine Or.inr ⟨?_, by simpa using hd⟩
      simp only [List.mem_cons, List.not_mem_nil, or_false] at hd
      rcases hd with rfl | rfl | rfl | rfl
      · rfl
      · rfl
      · rfl
      · rfl

/-- Both methods are found behind the alias `V`, once each. -/
theorem interfaceMethods_flattened_ring :
    (served ringModels).Unlooped ∧ (served ringModels).Legible (named "a" "V") ∧
    (exists methods embedded, (served ringModels).Shows (named "a" "V") methods embedded) ∧
    exists found, (served ringModels).interfaceMethods? (named "a" "V") = some found ∧
      found.keys = ["Read", "Write"] ∧ (served ringModels).Flattened (named "a" "V") found := by
  have hunlooped : (served ringModels).Unlooped := by
    refine unlooped_served servable_ring (fun name => if name.name = "V" then 1 else 0) ?_
    intro m hm d hd halias
    obtain rfl := List.mem_singleton.mp hm
    simp only [List.mem_cons, List.not_mem_nil, or_false] at hd
    rcases hd with rfl | rfl | rfl | rfl
    · cases halias
    · cases halias
    · cases halias
    · exact ⟨.declared "a" "W", rfl, by decide⟩
  have hlegible : (served ringModels).Legible (named "a" "V") := by
    refine legible_of_local ⟨"V", rfl⟩ ?_ ?_
    · rintro type target ⟨name, rfl⟩ ⟨other, d, hother, hd, halias, rfl⟩
      cases hother
      rcases definition_ring hd with rfl | ⟨_, rfl | rfl | rfl | rfl⟩
      · cases halias
      · cases halias
      · cases halias
      · cases halias
      · exact ⟨"W", rfl⟩
    · intro name methods embedded elem hiface helem
      obtain ⟨d, hd, hunderlying⟩ := interfaceOf?_eq_some_iff.mp hiface
      rcases definition_ring hd with rfl | ⟨_, rfl | rfl | rfl | rfl⟩
      · cases hunderlying
        cases helem
      · cases hunderlying
        cases helem
      · cases hunderlying
        rcases List.mem_pair.mp helem with rfl | rfl
        · exact ⟨"R", rfl⟩
        · exact ⟨"RW", rfl⟩
      · cases hunderlying
        rcases List.mem_pair.mp helem with rfl | rfl
        · exact ⟨"R", rfl⟩
        · exact ⟨"V", rfl⟩
      · cases hunderlying
  have hkeys : ((served ringModels).interfaceMethods? (named "a" "V")).map Table.keys =
      some ["Read", "Write"] := by
    decide +kernel
  have hshows : exists methods embedded,
      (served ringModels).Shows (named "a" "V") methods embedded := by
    have hsome : ((served ringModels).interfaceBehind? (named "a" "V")).isSome = true := by
      decide +kernel
    obtain ⟨⟨methods, embedded⟩, hbehind⟩ := Option.isSome_iff_exists.mp hsome
    exact ⟨methods, embedded, shows_iff.mpr hbehind⟩
  obtain ⟨found, hfound, hflattened⟩ :=
    interfaceMethods_flattened (served ringModels) hunlooped (named "a" "V") hlegible hshows
  rw [hfound] at hkeys
  exact ⟨hunlooped, hlegible, hshows, found, hfound, Option.some.inj hkeys, hflattened⟩

theorem typeDef?_served {models : List (String × List TypeDef)} (h : Servable models)
    {package name : String} {types : List TypeDef} {d : TypeDef} (hm : (package, types) ∈ models)
    (hd : d ∈ types) (hname : d.name.name = name) :
    (served models).typeDef? (.declared package name) = some d :=
  (definition?_served_iff h).mpr ⟨_, hm, rfl, hd, hname⟩

theorem interfaceOf?_served {models : List (String × List TypeDef)} (h : Servable models)
    {package name : String} {types : List TypeDef} {methods : List (InterfaceMethod GoType)}
    {embedded : List GoType} (hm : (package, types) ∈ models)
    (hd : Registry.interfaceDef package name methods embedded ∈ types) :
    (served models).interfaceOf? (.declared package name) = some (methods, embedded) :=
  interfaceOf?_eq_some_iff.mpr ⟨_, typeDef?_served h hm hd rfl, rfl⟩

theorem interfaceMethods_of_bare_embedded {name : TypeName} {d : TypeDef} {type : GoType}
    (hd : s.typeDef? name = some d) (hproper : d.isAlias = false)
    (hunderlying : d.underlying = .interface [] [type]) (hbare : s.interfaceBehind? type = none) :
    s.interfaceMethods? (.named name) = some Table.empty := by
  have hname : s.unalias (.named name) = .named name := by
    refine unaliasWithin_of_not_renames ?_ aliasLimit
    rintro target ⟨other, e, hother, he, halias, _⟩
    cases hother
    cases hd.symm.trans he
    cases hproper.symm.trans halias
  have hinner : forall depth visited,
      (s.interfaceWithin depth type visited).1.getD Table.empty = Table.empty := by
    intro depth visited
    rcases interfaceWithin_of_bare hbare depth visited with hnone | ⟨hempty, _⟩
    · rw [hnone]
      rfl
    · rw [hempty]
      rfl
  have hbound := room_lt_interfaceBound s (.named name)
  obtain ⟨depth, hdepth⟩ : exists depth, s.interfaceBound (.named name) = depth + 1 :=
    ⟨s.interfaceBound (.named name) - 1, by omega⟩
  unfold interfaceMethods?
  rw [hdepth, interfaceWithin, hname]
  dsimp only
  rw [interfaceOf?_eq_some_iff.mpr ⟨d, hd, hunderlying⟩]
  unfold flatten addEmbedded
  dsimp only
  rw [hinner]
  rfl

/-!
# Long chains of aliases and names that are written alike
-/

/-- The second type stands behind the first, an alias however far from its end, or is embedded in
the interface that the first one is. -/
inductive Leads (s : Session) : GoType -> GoType -> Prop where
  | renamed {type target : GoType} (h : s.Renames type target) : Leads s type target
  | named {name : TypeName} {methods : List (InterfaceMethod GoType)} {embedded : List GoType}
      {elem : GoType} (h : s.interfaceOf? name = some (methods, embedded))
      (helem : elem ∈ embedded) : Leads s (.named name) elem
  | written {methods : List (InterfaceMethod GoType)} {embedded : List GoType} {elem : GoType}
      (h : elem ∈ embedded) : Leads s (.interface methods embedded) elem

/-- Some interface that the type leads to, by whatever number of aliases, declares a method that
the search does not find. -/
def Misses (s : Session) (type : GoType) : Prop :=
  exists found name methods embedded m, s.interfaceMethods? type = some found ∧
    Relation.ReflTransGen s.Leads type (.named name) ∧
    s.interfaceOf? name = some (methods, embedded) ∧ m ∈ methods ∧ found.contains m.name = false

def link (k : Nat) : String :=
  String.ofList (List.replicate (k + 1) 'A')

def chainAlias (k : Nat) : TypeDef :=
  aliasDef "a" (link (k + 1)) (named "a" (link k))

def chainTypes : List TypeDef :=
  Registry.interfaceDef "a" "I" [] [named "a" (link 34)] ::
    Registry.interfaceDef "a" (link 0) [plainMethod "M"] [] :: (List.range 34).map chainAlias

def chainModels : List (String × List TypeDef) := [("a", chainTypes)]

theorem servable_chain : Servable chainModels where
  valid := by decide +kernel
  paths := by decide
  names := by decide +kernel

theorem unlooped_chain : (served chainModels).Unlooped := by
  refine unlooped_served servable_chain (fun name => name.name.length) ?_
  intro m hm d hd halias
  rw [List.mem_singleton.mp hm] at hd
  rcases List.mem_cons.mp hd with rfl | hrest
  · cases halias
  · rcases List.mem_cons.mp hrest with rfl | hlink
    · cases halias
    · obtain ⟨k, _, rfl⟩ := List.mem_map.mp hlink
      refine ⟨.declared "a" (link k), rfl, ?_⟩
      show (link k).length < (link (k + 1)).length
      unfold link
      rw [String.length_ofList, String.length_ofList, List.length_replicate,
        List.length_replicate]
      exact Nat.lt_succ_self _

theorem definition_link {k : Nat} (h : k < 34) :
    (served chainModels).typeDef? (.declared "a" (link (k + 1))) = some (chainAlias k) := by
  have hmem : chainAlias k ∈ (List.range 34).map chainAlias :=
    List.mem_map_of_mem (List.mem_range.mpr h)
  have htypes : chainAlias k ∈ chainTypes := List.mem_cons_of_mem _ (List.mem_cons_of_mem _ hmem)
  exact typeDef?_served servable_chain (List.mem_singleton_self _) htypes rfl

theorem renames_link {k : Nat} (h : k < 34) :
    (served chainModels).Renames (named "a" (link (k + 1))) (named "a" (link k)) :=
  ⟨_, chainAlias k, rfl, definition_link h, rfl, rfl⟩

/-- The search does not follow the chain to its end. -/
theorem unalias_link : (served chainModels).unalias (named "a" (link 34)) = named "a" (link 2) := by
  have hpath : forall n, n ≤ 32 -> (served chainModels).AliasPath n (named "a" (link (2 + n)))
      (named "a" (link 2)) := by
    intro n hn
    induction n with
    | zero => exact AliasPath.here _
    | succ n ih => exact AliasPath.step (renames_link (k := 2 + n) (by omega)) (ih (by omega))
  exact (hpath 32 (Nat.le_refl 32)).unaliasWithin 0

theorem leads_link {k : Nat} (h : k ≤ 34) :
    Relation.ReflTransGen (served chainModels).Leads (named "a" (link k)) (named "a" (link 0)) := by
  induction k with
  | zero => exact Relation.ReflTransGen.refl
  | succ k ih =>
      exact Relation.ReflTransGen.head (Leads.renamed (renames_link h)) (ih (Nat.le_of_succ_le h))

theorem definition_start : (served chainModels).typeDef? (.declared "a" "I") =
    some (Registry.interfaceDef "a" "I" [] [named "a" (link 34)]) :=
  typeDef?_served servable_chain (List.mem_singleton_self _) List.mem_cons_self rfl

theorem interfaceOf?_start : (served chainModels).interfaceOf? (.declared "a" "I") =
    some ([], [named "a" (link 34)]) :=
  interfaceOf?_eq_some_iff.mpr ⟨_, definition_start, rfl⟩

theorem interfaceMethods_start :
    (served chainModels).interfaceMethods? (named "a" "I") = some Table.empty := by
  refine interfaceMethods_of_bare_embedded definition_start rfl rfl ?_
  rw [interfaceBehind?_of_named unalias_link]
  apply Option.eq_none_iff_forall_ne_some.mpr
  rintro ⟨methods, embedded⟩ hfound
  obtain ⟨d, hd, hunderlying⟩ := interfaceOf?_eq_some_iff.mp hfound
  cases (definition_link (k := 1) (by decide)).symm.trans hd
  cases hunderlying

/-- The packages `a` and `a.b` with types that are both written `a.b.C`. -/
def twinModels : List (String × List TypeDef) :=
  [("a", [Registry.interfaceDef "a" "b.C" [plainMethod "M"] []]),
    ("a.b", [Registry.interfaceDef "a.b" "C" [plainMethod "N"] []])]

theorem servable_twins : Servable twinModels where
  valid := by decide +kernel
  paths := by decide
  names := by decide

theorem unlooped_twins : (served twinModels).Unlooped := by
  refine unlooped_served servable_twins (fun _ => 0) ?_
  intro m hm d hd halias
  rcases List.mem_pair.mp hm with rfl | rfl
  · rw [List.mem_singleton.mp hd] at halias
    cases halias
  · rw [List.mem_singleton.mp hd] at halias
    cases halias

def twins : GoType :=
  .interface [] [named "a" "b.C", named "a.b" "C"]

/-- A method is missed behind too many aliases, and behind a name that is written like one that
was visited before. -/
theorem misses_of_chain_and_twins :
    ((served chainModels).Unlooped ∧
      (exists methods embedded, (served chainModels).Shows (named "a" "I") methods embedded) ∧
      (served chainModels).Misses (named "a" "I")) ∧
    (served twinModels).Unlooped ∧
      (exists methods embedded, (served twinModels).Shows twins methods embedded) ∧
      (served twinModels).Misses twins := by
  have htwins : ((served twinModels).interfaceMethods? twins).map
      (fun found => found.contains "N") = some false := by
    decide +kernel
  obtain ⟨found', hfound', hmissing'⟩ := Option.map_eq_some_iff.mp htwins
  have hend : (served chainModels).interfaceOf? (.declared "a" (link 0)) =
      some ([plainMethod "M"], []) :=
    interfaceOf?_served servable_chain (List.mem_singleton_self _)
      (List.mem_cons_of_mem _ List.mem_cons_self)
  have hsecond : (served twinModels).interfaceOf? (.declared "a.b" "C") =
      some ([plainMethod "N"], []) :=
    interfaceOf?_served servable_twins (List.mem_cons_of_mem _ (List.mem_singleton_self _))
      (List.mem_singleton_self _)
  refine ⟨⟨unlooped_chain, ?_, ?_⟩, unlooped_twins, ?_, ?_⟩
  · exact ⟨_, _, 0, _, Nat.zero_le _, AliasPath.here _, Or.inr ⟨_, rfl, interfaceOf?_start⟩⟩
  · have hstep := Leads.named interfaceOf?_start (List.mem_singleton_self _)
    have hway := Relation.ReflTransGen.head hstep (leads_link (Nat.le_refl 34))
    exact ⟨_, _, _, _, _, interfaceMethods_start, hway, hend, List.mem_singleton_self _, rfl⟩
  · exact ⟨_, _, 0, _, Nat.zero_le _, AliasPath.here _, Or.inl rfl⟩
  · have hway : Relation.ReflTransGen (served twinModels).Leads twins (named "a.b" "C") :=
      Relation.ReflTransGen.single
        (Leads.written (List.mem_cons_of_mem _ (List.mem_singleton_self _)))
    exact ⟨found', _, _, _, _, hfound', hway, hsecond, List.mem_singleton_self _, hmissing'⟩

end Session
end GoAtlas
