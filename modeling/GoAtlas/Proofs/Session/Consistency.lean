import GoAtlas.Proofs.Session.Operation

/-!
# The index and the cache

The index holds exactly the types of the packages that were resolved from sources, and the
recorded kinds are those of the remembered packages.  The invariant is carried through checks
that ask for further packages: a path stays unremembered while it is pending, and its types
enter the index in the same breath as its package enters the cache.
-/

namespace GoAtlas

/-!
# The types of a package
-/

namespace Package

theorem nodup_localNames {i : Index} {path : String} {types : List TypeDef}
    (hpath : path ≠ "") (h : i.Accepts path types) :
    ((types.map fun d => (d.name.name, d)).map (·.1)).Nodup := by
  rw [List.map_map]
  refine List.Nodup.of_map (fun name => (TypeName.declared path name).full) ?_
  rw [List.map_map]
  have hfull : types.map ((fun name => (TypeName.declared path name).full) ∘
      (·.1) ∘ fun d => (d.name.name, d)) = types.map fun d => d.name.full := by
    apply List.map_congr_left
    intro d hd
    have hname := TypeName.eq_declared_of_packagePath (h.owned d hd) hpath
    exact congrArg TypeName.full hname.symm
  rw [hfull]
  exact h.distinct

theorem values_typeTable_perm {i : Index} {path : String} {types : List TypeDef}
    (hpath : path ≠ "") (h : i.Accepts path types) : (typeTable types).values.Perm types := by
  have hperm := (Table.insertPairs_perm (t := Table.empty) (nodup_localNames hpath h)
    (fun _ _ => rfl)).map Prod.snd
  simpa [typeTable, Table.ofList_eq_insertPairs, Table.values, Table.empty, List.map_map,
    Function.comp_def] using hperm

theorem get?_typeTable_of_nodup {types : List TypeDef}
    (h : ((types.map fun d => (d.name.name, d)).map (·.1)).Nodup) {name : String}
    {d : TypeDef} : (typeTable types).get? name = some d ↔ d ∈ types ∧ d.name.name = name := by
  unfold typeTable
  rw [Table.get?_ofList_iff h, List.mem_map]
  constructor
  · rintro ⟨e, he, heq⟩
    cases heq
    exact ⟨he, rfl⟩
  · rintro ⟨hd, rfl⟩
    exact ⟨d, hd, rfl⟩

theorem get?_typeTable_iff {i : Index} {path : String} {types : List TypeDef}
    (hpath : path ≠ "") (h : i.Accepts path types) {name : String} {d : TypeDef} :
    (typeTable types).get? name = some d ↔ d ∈ types ∧ d.name = .declared path name := by
  rw [get?_typeTable_of_nodup (nodup_localNames hpath h)]
  constructor
  · rintro ⟨hd, rfl⟩
    exact ⟨hd, TypeName.eq_declared_of_packagePath (h.owned d hd) hpath⟩
  · rintro ⟨hd, hname⟩
    exact ⟨hd, congrArg TypeName.name hname⟩

end Package

namespace CacheEntry

def kind? : CacheEntry -> Option PackageKind
  | resolved package => some package.kind
  | absent => some .absent
  | failed _ => none

end CacheEntry

namespace Session

/-!
# Resolved packages
-/

def sourcePackages (s : Session) : List Package :=
  s.packages.filter fun p => p.kind.isSource

theorem mem_packages_iff {s : Session} {p : Package} :
    p ∈ s.packages ↔ exists path, s.cache.get? path = some (.resolved p) := by
  unfold packages
  rw [List.mem_filterMap]
  constructor
  · rintro ⟨entry, hentry, hp⟩
    rcases Table.mem_values_iff.mp hentry with ⟨path, hpath⟩
    cases entry with
    | resolved q =>
        cases hp
        exact ⟨path, hpath⟩
    | absent => cases hp
    | failed cause => cases hp
  · rintro ⟨path, hpath⟩
    exact ⟨.resolved p, Table.mem_values_iff.mpr ⟨path, hpath⟩, rfl⟩

theorem package?_eq_some_iff {s : Session} {path : String} {p : Package} :
    s.package? path = some p ↔ s.cache.get? path = some (.resolved p) := by
  unfold package?
  constructor
  · intro h
    split at h
    · next q hentry =>
        cases h
        exact hentry
    · cases h
  · intro h
    rw [h]

theorem sourcePackages_remember {s : Session} {path : String} (hnew : s.cache.get? path = none)
    {p : Package} (hsource : p.kind.isSource = true) :
    (s.remember path (.resolved p)).sourcePackages.Perm (p :: s.sourcePackages) := by
  have hvalues : (s.remember path (.resolved p)).cache.values.Perm
      (.resolved p :: s.cache.values) := Table.values_insert_perm hnew
  unfold sourcePackages packages
  refine ((hvalues.filterMap _).filter _).trans ?_
  simp [hsource]

theorem sourcePackages_remember_other {s : Session} {path : String} {entry : CacheEntry}
    (hnew : s.cache.get? path = none)
    (hentry : forall p, entry = .resolved p -> p.kind.isSource = false) :
    (s.remember path entry).sourcePackages.Perm s.sourcePackages := by
  have hvalues : (s.remember path entry).cache.values.Perm (entry :: s.cache.values) :=
    Table.values_insert_perm hnew
  unfold sourcePackages packages
  refine ((hvalues.filterMap _).filter _).trans ?_
  cases entry with
  | resolved p => simp [hentry p rfl]
  | absent => simp
  | failed cause => simp

/-!
# The invariant
-/

structure Consistent (s : Session) : Prop where
  kinds : forall path entry kind, s.cache.get? path = some entry ->
    entry.kind? = some kind -> s.kinds.get? path = some kind
  path : forall path p, s.cache.get? path = some (.resolved p) -> p.path = path
  types : forall path p name d, s.cache.get? path = some (.resolved p) ->
    p.kind.isSource = true -> p.type? name = some d -> d.name = .declared path name
  keys : forall full d, s.index.table.get? full = some d -> d.name.full = full
  definitions : s.index.definitions.Perm (s.sourcePackages.flatMap fun p => p.types.values)

theorem cached_of_remember {s : Session} {path other : String} {entry e : CacheEntry}
    (h : (s.remember path entry).cache.get? other = some e) :
    (other = path ∧ entry = e) ∨ s.cache.get? other = some e := by
  change (s.cache.insert path entry).get? other = some e at h
  rw [Table.get?_insert] at h
  split at h
  · next heq =>
      injection h with h
      exact Or.inl ⟨heq, h⟩
  · exact Or.inr h

theorem path_systemPackage (registry : Registry) (path : String) (dir : Option Path) :
    (systemPackage registry path dir).path = path := by
  unfold systemPackage
  split
  · rfl
  · rfl

theorem kind_systemPackage (registry : Registry) (path : String) (dir : Option Path) :
    (systemPackage registry path dir).kind = .system := by
  unfold systemPackage
  split
  · rfl
  · rfl

namespace Consistent

theorem start (setup : Setup) : (Session.start setup).Consistent where
  kinds _ _ _ h := by cases h
  path _ _ h := by cases h
  types _ _ _ _ h := by cases h
  keys _ _ h := by cases h
  definitions := List.Perm.refl _

theorem congr {s t : Session} (h : s.Consistent) (hcache : t.cache = s.cache)
    (hkinds : t.kinds = s.kinds) (hindex : t.index = s.index) : t.Consistent := by
  have hsource : t.sourcePackages = s.sourcePackages := by
    unfold sourcePackages packages
    rw [hcache]
  exact
    { kinds := by
        rw [hcache, hkinds]
        exact h.kinds
      path := by
        rw [hcache]
        exact h.path
      types := by
        rw [hcache]
        exact h.types
      keys := by
        rw [hindex]
        exact h.keys
      definitions := by
        rw [hindex, hsource]
        exact h.definitions }

theorem recordKind {s : Session} (h : s.Consistent) {path : String}
    (hnew : s.cache.get? path = none) (kind : PackageKind) :
    (s.recordKind path kind).Consistent where
  kinds other entry k hentry hk := by
    have hne : other ≠ path := by
      intro heq
      subst heq
      cases hnew.symm.trans hentry
    exact (Table.get?_insert_of_ne s.kinds kind hne).trans (h.kinds other entry k hentry hk)
  path := h.path
  types := h.types
  keys := h.keys
  definitions := h.definitions

theorem remember {s : Session} (h : s.Consistent) {path : String} {entry : CacheEntry}
    (hnew : s.cache.get? path = none)
    (hkind : forall kind, entry.kind? = some kind -> s.kinds.get? path = some kind)
    (hentry : forall p, entry = .resolved p -> p.path = path ∧ p.kind.isSource = false) :
    (s.remember path entry).Consistent where
  kinds other e kind he hk := by
    rcases cached_of_remember he with ⟨rfl, rfl⟩ | hold
    · exact hkind kind hk
    · exact h.kinds other e kind hold hk
  path other p hp := by
    rcases cached_of_remember hp with ⟨rfl, heq⟩ | hold
    · exact (hentry p heq).1
    · exact h.path other p hold
  types other p name d hp hsource hd := by
    rcases cached_of_remember hp with ⟨rfl, heq⟩ | hold
    · rw [(hentry p heq).2] at hsource
      cases hsource
    · exact h.types other p name d hold hsource hd
  keys := h.keys
  definitions :=
    h.definitions.trans
      ((sourcePackages_remember_other hnew fun p hp => (hentry p hp).2).symm.flatMap_right _)

/-- A package from sources is remembered together with the index that its types were merged
into. -/
theorem merge {s : Session} (h : s.Consistent) {path : String} {types : List TypeDef}
    {index : Index} {p : Package} (hnew : s.cache.get? path = none) (hpath : path ≠ "")
    (hkind : s.kinds.get? path = some p.kind) (hsource : p.kind.isSource = true)
    (hp : p.path = path) (htypes : p.types = Package.typeTable types)
    (hmerge : s.index.merge path types = .ok index) :
    (Session.remember path (.resolved p) { s with index := index }).Consistent := by
  rcases Index.merge_eq_ok_iff.mp hmerge with ⟨haccepts, rfl⟩
  exact
    { kinds := by
        intro other e kind he hk
        rcases cached_of_remember he with ⟨rfl, rfl⟩ | hold
        · cases hk
          exact hkind
        · exact h.kinds other e kind hold hk
      path := by
        intro other q hq
        rcases cached_of_remember hq with ⟨rfl, heq⟩ | hold
        · cases heq
          exact hp
        · exact h.path other q hold
      types := by
        intro other q name d hq hs hd
        rcases cached_of_remember hq with ⟨rfl, heq⟩ | hold
        · cases heq
          unfold Package.type? at hd
          rw [htypes] at hd
          exact ((Package.get?_typeTable_iff hpath haccepts).mp hd).2
        · exact h.types other q name d hold hs hd
      keys := by
        intro full d hd
        rcases Index.mem_or_get?_of_get?_insertAll haccepts hd with ⟨_, hfull⟩ | hold
        · exact hfull
        · exact h.keys full d hold
      definitions := by
        have hvalues : p.types.values.Perm types := by
          rw [htypes]
          exact Package.values_typeTable_perm hpath haccepts
        have hpackages : (Session.remember path (.resolved p)
            { s with index := s.index.insertAll types }).sourcePackages.Perm
              (p :: s.sourcePackages) := sourcePackages_remember hnew hsource
        have hadded : (types ++ s.index.definitions).Perm
            ((p :: s.sourcePackages).flatMap fun p => p.types.values) := by
          rw [List.flatMap_cons]
          exact hvalues.symm.append h.definitions
        exact ((Index.definitions_insertAll_perm haccepts).trans hadded).trans
          (hpackages.symm.flatMap_right _) }

end Consistent

/-!
# Whole requests
-/

def Keeping (importer : Importer) : Prop :=
  forall q s, s.Consistent -> (importer q s).2.Consistent

theorem consistent_check {importer : Importer} (himporter : Keeping importer)
    {path : String} {kind : PackageKind} {source : LoadedPackage} {s t : Session}
    {outcome : CheckOutcome} (hconsistent : s.Consistent) (hnew : ¬ s.Held path)
    (hcheck : (s.setup.checker source).run importer
      ((s.recordKind path kind).enter path).countLoad.countCheck = (outcome, t)) :
    (t.capture outcome.errors).leave.Consistent := by
  have hrun := Inquiry.run_rel (R := fun s t => s.Consistent -> t.Consistent)
    (fun _ h => h) (fun _ _ _ hst htu h => htu (hst h)) (fun q s => himporter q s)
    (s.setup.checker source) ((s.recordKind path kind).enter path).countLoad.countCheck
  rw [hcheck] at hrun
  have hrecorded := hconsistent.recordKind (not_held_iff.mp hnew).1 kind
  exact (hrun (hrecorded.congr rfl rfl rfl)).congr rfl rfl rfl

theorem consistent_of_loads_error {importer : Importer} (himporter : Keeping importer)
    {path : String} {kind : PackageKind} {dir : Path} {s t : Session} {e : Error}
    (hconsistent : s.Consistent) (hnew : ¬ s.Held path)
    (h : Loads importer path kind dir ((s.recordKind path kind).enter path) (.error e) t) :
    t.leave.Consistent := by
  cases h with
  | unreadable hload =>
      exact (hconsistent.recordKind (not_held_iff.mp hnew).1 kind).congr rfl rfl rfl
  | rejected hload hcheck hverdict => exact consistent_check himporter hconsistent hnew hcheck
  | refused hload hcheck hverdict hmerge =>
      exact consistent_check himporter hconsistent hnew hcheck

theorem consistent_of_loads_ok {importer : Importer} (hgrowing : Growing importer)
    (himporter : Keeping importer) {path : String} {kind : PackageKind} {dir : Path}
    {s t : Session} {p : Package} (hconsistent : s.Consistent) (hnew : ¬ s.Held path)
    (hpath : path ≠ "") (hsource : kind.isSource = true)
    (h : Loads importer path kind dir ((s.recordKind path kind).enter path) (.ok p) t) :
    (t.leave.remember path (.resolved p)).Consistent := by
  cases h with
  | merged hload hcheck hverdict hmerge =>
      have hentered := entered_check hgrowing hnew hcheck
      have hchecked := consistent_check himporter hconsistent hnew hcheck
      exact hchecked.merge (not_held_iff.mp hentered.new).1 hpath hentered.kind hsource rfl rfl
        hmerge

theorem consistent_of_opens {importer : Importer} (hgrowing : Growing importer)
    (himporter : Keeping importer) {path : String} {origin : Option Path} {s t : Session}
    {r : Except Error (Option Package)} (hconsistent : s.Consistent) (hnew : ¬ s.Held path)
    (h : Opens importer path origin s r t) : t.Consistent := by
  have hcache := (not_held_iff.mp hnew).1
  cases h with
  | misnamed hfound => exact hconsistent
  | absent hfound hkind =>
      refine (hconsistent.recordKind hcache .absent).remember hcache ?_ ?_
      · intro kind hk
        cases hk
        exact Table.get?_insert_self s.kinds path .absent
      · intro p hp
        cases hp
  | system hfound hkind =>
      refine (hconsistent.recordKind hcache .system).remember hcache ?_ ?_
      · intro kind hk
        cases hk
        rw [kind_systemPackage]
        exact Table.get?_insert_self s.kinds path .system
      · intro p hp
        cases hp
        rw [kind_systemPackage]
        exact ⟨path_systemPackage _ _ _, rfl⟩
  | broken hsource hload hinvariant =>
      exact consistent_of_loads_error himporter hconsistent hnew (loads_of_run hload)
  | failed hsource hload hinvariant =>
      have hentered := entered_of_loads hgrowing hnew (loads_of_run hload)
      refine (consistent_of_loads_error himporter hconsistent hnew (loads_of_run hload)).remember
        (not_held_iff.mp hentered.new).1 ?_ ?_
      · intro kind hk
        cases hk
      · intro p hp
        cases hp
  | resolved hsource hload =>
      rcases isSource_of_sourceOf? hsource with ⟨hkind, hvalid⟩
      exact consistent_of_loads_ok hgrowing himporter hconsistent hnew
        (Provenance.ne_empty_of_isValid hvalid) hkind (loads_of_run hload)

theorem consistent_of_requests {bound : Nat}
    (himporter : forall n, n < bound -> Keeping (importerWithin n)) {path : String}
    {origin : Option Path} {s t : Session} {r : Except Error (Option Package)}
    (hconsistent : s.Consistent) (h : Requests path origin s bound r t) : t.Consistent := by
  cases h with
  | cached hentry => exact hconsistent.congr rfl rfl rfl
  | cyclic hnew hpending => exact hconsistent.congr rfl rfl rfl
  | exhausted hnew => exact hconsistent.congr rfl rfl rfl
  | @opened bound _ _ hnew hopens =>
      have hcounted : s.countRequest.Consistent := hconsistent.congr rfl rfl rfl
      exact consistent_of_opens (growing_importerWithin bound)
        (himporter bound (Nat.lt_succ_self bound)) hcounted hnew hopens

theorem keeping_importerWithin (bound : Nat) : Keeping (importerWithin bound) := by
  induction bound using Nat.strongRecOn with
  | ind bound ih =>
      intro q s hconsistent
      exact consistent_of_requests ih hconsistent (requests_of_run rfl)

theorem consistent_afterRequest (s : Session) (path : String) (origin : Option Path)
    (h : s.Consistent) : (s.afterRequest path origin).Consistent := by
  unfold afterRequest
  rw [run_resolveFrom]
  exact consistent_of_requests (fun n _ => keeping_importerWithin n) h (requests_of_run rfl)

theorem consistent_after (setup : Setup) (ops : List Operation) :
    (after setup ops).Consistent :=
  after_induction (Consistent.start setup) consistent_afterRequest ops

/-!
# What consistency means for users of a session
-/

namespace Consistent

theorem mem_definitions_iff {s : Session} (h : s.Consistent) {d : TypeDef} :
    d ∈ s.index.definitions ↔
      exists path p, s.cache.get? path = some (.resolved p) ∧ p.kind.isSource = true ∧
        d ∈ p.types.values := by
  rw [h.definitions.mem_iff, List.mem_flatMap]
  constructor
  · rintro ⟨p, hp, hd⟩
    rcases List.mem_filter.mp hp with ⟨hresolved, hsource⟩
    rcases mem_packages_iff.mp hresolved with ⟨path, hpath⟩
    exact ⟨path, p, hpath, hsource, hd⟩
  · rintro ⟨path, p, hpath, hsource, hd⟩
    exact ⟨p, List.mem_filter.mpr ⟨mem_packages_iff.mpr ⟨path, hpath⟩, hsource⟩, hd⟩

theorem name_of_mem_values {s : Session} (h : s.Consistent) {path : String} {p : Package}
    (hp : s.cache.get? path = some (.resolved p)) (hsource : p.kind.isSource = true)
    {d : TypeDef} (hd : d ∈ p.types.values) :
    exists name, p.type? name = some d ∧ d.name = .declared path name := by
  rcases Table.mem_values_iff.mp hd with ⟨name, hname⟩
  exact ⟨name, hname, h.types path p name d hp hsource hname⟩

theorem nodup_fullNames {s : Session} (h : s.Consistent) :
    (s.index.definitions.map fun d => d.name.full).Nodup := by
  have hkeys : s.index.definitions.map (fun d => d.name.full) = s.index.table.keys := by
    unfold Index.definitions Table.values Table.keys
    rw [List.map_map]
    apply List.map_congr_left
    intro entry hentry
    exact h.keys entry.1 entry.2 (Table.mem_entries_iff.mp hentry)
  rw [hkeys]
  exact Table.keys_nodup _

theorem mem_package_iff {s : Session} (h : s.Consistent) {path : String} {d : TypeDef} :
    d ∈ s.index.package path ↔
      exists p, s.cache.get? path = some (.resolved p) ∧ p.kind.isSource = true ∧
        d ∈ p.types.values := by
  unfold Index.package
  rw [List.mem_filter, h.mem_definitions_iff, beq_iff_eq]
  constructor
  · rintro ⟨⟨other, p, hp, hsource, hd⟩, hpath⟩
    rcases h.name_of_mem_values hp hsource hd with ⟨name, _, hname⟩
    rw [hname] at hpath
    cases hpath
    exact ⟨p, hp, hsource, hd⟩
  · rintro ⟨p, hp, hsource, hd⟩
    rcases h.name_of_mem_values hp hsource hd with ⟨name, _, hname⟩
    exact ⟨⟨path, p, hp, hsource, hd⟩, congrArg TypeName.packagePath hname⟩

theorem type_of_indexed {s : Session} (h : s.Consistent)
    (hlocal : forall d, d ∈ s.index.definitions -> '.' ∉ d.name.name.toList) {n : TypeName}
    (hn : '.' ∉ n.name.toList) {d : TypeDef} (hd : s.index.get? n = some d) :
    exists p, s.package? n.packagePath = some p ∧ p.type? n.name = some d := by
  have hmem : d ∈ s.index.definitions := Table.mem_values_iff.mpr ⟨n.full, hd⟩
  have hfull : d.name.full = n.full := h.keys n.full d hd
  rcases h.mem_definitions_iff.mp hmem with ⟨path, p, hp, hsource, hvalue⟩
  rcases h.name_of_mem_values hp hsource hvalue with ⟨name, htype, hname⟩
  have hdot : '.' ∉ name.toList := by
    have hlocal := hlocal d hmem
    rw [hname] at hlocal
    exact hlocal
  rw [hname] at hfull
  cases n with
  | builtin word =>
      have hlist := congrArg String.toList hfull
      rw [TypeName.toList_full_declared] at hlist
      refine absurd ?_ hn
      show '.' ∈ word.toList
      rw [show word.toList = path.toList ++ '.' :: name.toList from hlist.symm]
      exact List.mem_append_right _ List.mem_cons_self
  | declared package word =>
      rcases TypeName.declared_eq_of_full_eq hdot hn hfull with ⟨rfl, rfl⟩
      exact ⟨p, package?_eq_some_iff.mpr hp, htype⟩

theorem definition?_eq {s : Session} (h : s.Consistent)
    (hlocal : forall d, d ∈ s.index.definitions -> '.' ∉ d.name.name.toList) (n : TypeName)
    (hn : '.' ∉ n.name.toList) :
    s.definition? n = (s.package? n.packagePath).bind fun p => p.type? n.name := by
  unfold definition?
  cases hd : s.index.get? n with
  | none => rfl
  | some d =>
      rcases h.type_of_indexed hlocal hn hd with ⟨p, hp, htype⟩
      rw [hp]
      exact htype.symm

end Consistent

/-- The index, the recorded kinds and the remembered packages tell the same story. -/
structure Agreement (s : Session) : Prop where
  /-- The index holds the types of the packages from sources and nothing else, -/
  definitions : s.index.definitions.Perm (s.sourcePackages.flatMap fun p => p.types.values)
  /-- and no two of them share a name. -/
  distinct : (s.index.definitions.map fun d => d.name.full).Nodup
  owned : forall p d, p ∈ s.sourcePackages -> d ∈ p.types.values -> d.name.packagePath = p.path
  /-- Only a path that was resolved from sources has definitions. -/
  package : forall path d, d ∈ s.index.package path ↔
    exists p, s.cache.get? path = some (.resolved p) ∧ p.kind.isSource = true ∧
      d ∈ p.types.values
  resolvedKind : forall path p, s.cache.get? path = some (.resolved p) ->
    s.kinds.get? path = some p.kind
  absentKind : forall path, s.cache.get? path = some .absent -> s.kinds.get? path = some .absent
  /-- If local names have no dots, definitions can be looked up in their packages as well. -/
  lookup : (forall d, d ∈ s.index.definitions -> '.' ∉ d.name.name.toList) ->
    forall n : TypeName, '.' ∉ n.name.toList ->
      s.definition? n = (s.package? n.packagePath).bind fun p => p.type? n.name

/-- After any sequence of operations, whatever the checks asked for and however they ended. -/
theorem agreement_after (setup : Setup) (ops : List Operation) :
    (after setup ops).Agreement := by
  have h := consistent_after setup ops
  exact
    { definitions := h.definitions
      distinct := h.nodup_fullNames
      owned := by
        intro p d hp hd
        rcases List.mem_filter.mp hp with ⟨hresolved, hsource⟩
        rcases mem_packages_iff.mp hresolved with ⟨path, hpath⟩
        rcases h.name_of_mem_values hpath hsource hd with ⟨name, _, hname⟩
        rw [hname, h.path path p hpath]
        rfl
      package := fun _ _ => h.mem_package_iff
      resolvedKind := fun path p hp => h.kinds path _ _ hp rfl
      absentKind := fun path habsent => h.kinds path _ _ habsent rfl
      lookup := h.definition?_eq }

end Session
end GoAtlas
