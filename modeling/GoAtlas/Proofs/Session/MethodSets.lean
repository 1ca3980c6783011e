import GoAtlas.Proofs.GoType
import GoAtlas.Proofs.Session.Consistency
import Mathlib.Data.Finset.Card

/-!
# Method sets of two sessions

The names from which a type is built lead to definitions, these to further names, and so on.
Two sessions that agree on all definitions on the way have the same method sets for the type,
however many other definitions they know: the bounds on how far embedding is followed are never
reached.
-/

namespace GoAtlas

namespace GoType

theorem layers_le_layersOf {type : GoType} {types : List GoType} (h : type ∈ types) :
    type.layers ≤ layersOf types := by
  induction types with
  | nil => cases h
  | cons first rest ih =>
      rw [layersOf]
      rcases List.mem_cons.mp h with rfl | hrest
      · exact Nat.le_max_left _ _
      · exact Nat.le_trans (ih hrest) (Nat.le_max_right _ _)

theorem layers_lt_interface (methods : List (InterfaceMethod GoType)) {embedded : List GoType}
    {type : GoType} (h : type ∈ embedded) : type.layers < (interface methods embedded).layers := by
  rw [layers]
  exact Nat.lt_succ_of_le (layers_le_layersOf h)

theorem within_of_embedded {invalid : Prop} {known : String -> String -> Prop}
    {methods : List (InterfaceMethod GoType)} {embedded : List GoType}
    (h : (interface methods embedded).Within invalid known) {type : GoType}
    (htype : type ∈ embedded) : type.Within invalid known := by
  intro leaf hleaf
  exact h leaf (List.mem_append_right _ (mem_listLeaves.mpr ⟨type, htype, hleaf⟩))

end GoType

namespace Session

/-!
# Territories
-/

/-- A set of names is closed in a session: each leads to a definition that is no alias and has
only names of the set in its structure, or nowhere. -/
structure Territory (K : String -> String -> Prop) (s : Session) : Prop where
  named : forall package name d, K package name ->
    s.definition? (.declared package name) = some d -> d.name = .declared package name
  direct : forall package name d, K package name ->
    s.definition? (.declared package name) = some d -> d.isAlias = false
  within : forall package name d, K package name ->
    s.definition? (.declared package name) = some d -> d.underlying.Within True K

def Agree (K : String -> String -> Prop) (s t : Session) : Prop :=
  forall package name, K package name ->
    t.definition? (.declared package name) = s.definition? (.declared package name)

variable {K : String -> String -> Prop} {s t : Session}

theorem Agree.refl (K : String -> String -> Prop) (s : Session) : Agree K s s :=
  fun _ _ _ => rfl

theorem Agree.symm (h : Agree K s t) : Agree K t s :=
  fun package name hK => (h package name hK).symm

theorem Territory.agree (h : Territory K s) (hst : Agree K s t) : Territory K t where
  named package name d hK hd := h.named package name d hK (hst package name hK ▸ hd)
  direct package name d hK hd := h.direct package name d hK (hst package name hK ▸ hd)
  within package name d hK hd := h.within package name d hK (hst package name hK ▸ hd)

theorem typeDef_of_builtin {word : String} {d : TypeDef}
    (h : s.typeDef? (.builtin word) = some d) :
    d = TypeDef.plain (.builtin word) GoType.errorInterface := by
  simp only [typeDef?] at h
  split at h
  · exact (Option.some.inj h).symm
  · cases h

theorem Territory.typeDef (h : Territory K s) {name : TypeName} {d : TypeDef}
    (hname : (GoType.named name).Within True K) (hd : s.typeDef? name = some d) :
    d.isAlias = false ∧ d.underlying.Within True K := by
  cases name with
  | builtin word =>
      rw [typeDef_of_builtin hd]
      exact ⟨rfl, GoType.within_errorInterface⟩
  | declared package name =>
      have hK := GoType.within_declared_iff.mp hname
      exact ⟨h.direct package name d hK hd, h.within package name d hK hd⟩

theorem Agree.typeDef (hst : Agree K s t) {name : TypeName}
    (hname : (GoType.named name).Within True K) : t.typeDef? name = s.typeDef? name := by
  cases name with
  | builtin word => rfl
  | declared package name => exact hst package name (GoType.within_declared_iff.mp hname)

theorem Territory.unalias (h : Territory K s) {type : GoType} (htype : type.Within True K) :
    s.unalias type = type := by
  unfold Session.unalias aliasLimit unaliasWithin
  split
  · next d hd =>
      obtain ⟨name, hname, hdef⟩ := Option.bind_eq_some_iff.mp hd
      cases type with
      | named other =>
          cases hname
          rw [(h.typeDef htype hdef).1]
          rfl
      | _ => cases hname
  · rfl

/-!
# Names that were not visited
-/

def unvisited (names : Finset String) (visited : Visited) : Nat :=
  (names \ visited.toFinset).card

theorem unvisited_le_card (names : Finset String) (visited : Visited) :
    unvisited names visited ≤ names.card :=
  Finset.card_le_card Finset.sdiff_subset

theorem sdiff_subset_of_visited (names : Finset String) {visited more : Visited}
    (h : visited ⊆ more) : names \ more.toFinset ⊆ names \ visited.toFinset := by
  apply Finset.sdiff_subset_sdiff (Finset.Subset.refl names)
  intro name hname
  simp only [List.mem_toFinset] at hname ⊢
  exact h hname

theorem unvisited_mono (names : Finset String) {visited more : Visited} (h : visited ⊆ more) :
    unvisited names more ≤ unvisited names visited :=
  Finset.card_le_card (sdiff_subset_of_visited names h)

theorem unvisited_lt {names : Finset String} {visited more : Visited} (h : visited ⊆ more)
    {name : String} (hname : name ∈ names) (hold : name ∉ visited) (hnew : name ∈ more) :
    unvisited names more < unvisited names visited := by
  apply Finset.card_lt_card
  rw [Finset.ssubset_iff_of_subset (sdiff_subset_of_visited names h)]
  refine ⟨name, ?_, ?_⟩
  · simp [hname, hold]
  · simp [hnew]

/-- All definitions of the territory have their names among `names`, and interfaces in them are
at most `height` deep. -/
structure Surveyed (K : String -> String -> Prop) (s : Session) (names : Finset String)
    (height : Nat) : Prop where
  names : forall package name d, K package name ->
    s.definition? (.declared package name) = some d ->
    (TypeName.declared package name).full ∈ names
  height : forall package name d, K package name ->
    s.definition? (.declared package name) = some d -> d.underlying.layers ≤ height

theorem Surveyed.agree {names : Finset String} {height : Nat} (h : Surveyed K s names height)
    (hst : Agree K s t) : Surveyed K t names height where
  names package name d hK hd := h.names package name d hK (hst package name hK ▸ hd)
  height package name d hK hd := h.height package name d hK (hst package name hK ▸ hd)

/-!
# Interfaces
-/

theorem addEmbedded_congr {inner inner' : GoType -> Visited -> Option MethodSet × Visited}
    {visited : Visited} {embedded : List GoType}
    (h : forall type v, type ∈ embedded -> visited ⊆ v ->
      inner type v = inner' type v ∧ v ⊆ (inner type v).2)
    (acc : MethodSet × Visited) (hacc : visited ⊆ acc.2) :
    addEmbedded inner embedded acc = addEmbedded inner' embedded acc ∧
      visited ⊆ (addEmbedded inner embedded acc).2 := by
  induction embedded generalizing acc with
  | nil => exact ⟨rfl, hacc⟩
  | cons type rest ih =>
      obtain ⟨heq, hgrows⟩ := h type acc.2 List.mem_cons_self hacc
      unfold addEmbedded
      dsimp only
      rw [← heq]
      exact ih (fun other v hother => h other v (List.mem_cons_of_mem _ hother)) _
        (List.Subset.trans hacc hgrows)

theorem flatten_congr {inner inner' : GoType -> Visited -> Option MethodSet × Visited}
    {visited : Visited} (methods : List (InterfaceMethod GoType)) {embedded : List GoType}
    (h : forall type v, type ∈ embedded -> visited ⊆ v ->
      inner type v = inner' type v ∧ v ⊆ (inner type v).2) :
    flatten inner methods embedded visited = flatten inner' methods embedded visited ∧
      visited ⊆ (flatten inner methods embedded visited).2 := by
  obtain ⟨heq, hgrows⟩ := addEmbedded_congr h (ownMethods methods, visited) (List.Subset.refl _)
  unfold flatten
  dsimp only
  rw [← heq]
  exact ⟨rfl, hgrows⟩

theorem Territory.interfaceOf (h : Territory K s) {name : TypeName}
    {methods : List (InterfaceMethod GoType)} {embedded : List GoType}
    (hname : (GoType.named name).Within True K)
    (hiface : s.interfaceOf? name = some (methods, embedded)) :
    exists d, s.typeDef? name = some d ∧ d.underlying = .interface methods embedded ∧
      (GoType.interface methods embedded).Within True K := by
  unfold interfaceOf? at hiface
  split at hiface
  · next d hd =>
      split at hiface
      · next heq =>
          cases hiface
          refine ⟨d, hd, heq, ?_⟩
          rw [← heq]
          exact (h.typeDef hname hd).2
      · cases hiface
  · cases hiface

theorem Agree.interfaceOf (hst : Agree K s t) {name : TypeName}
    (hname : (GoType.named name).Within True K) : t.interfaceOf? name = s.interfaceOf? name := by
  unfold interfaceOf?
  rw [hst.typeDef hname]

variable {names : Finset String} {height : Nat}

theorem Surveyed.interfaceOf (hk : Surveyed K s names height) (h : Territory K s)
    {name : TypeName} {methods : List (InterfaceMethod GoType)} {embedded : List GoType}
    (hname : (GoType.named name).Within True K)
    (hiface : s.interfaceOf? name = some (methods, embedded)) {type : GoType}
    (htype : type ∈ embedded) : name.full ∈ names ∧ type.layers < height := by
  obtain ⟨d, hd, hunderlying, _⟩ := h.interfaceOf hname hiface
  cases name with
  | builtin word =>
      rw [typeDef_of_builtin hd] at hunderlying
      cases hunderlying
      cases htype
  | declared package name =>
      have hK := GoType.within_declared_iff.mp hname
      have hlayers := hk.height package name d hK hd
      rw [hunderlying] at hlayers
      exact ⟨hk.names package name d hK hd,
        Nat.lt_of_lt_of_le (GoType.layers_lt_interface methods htype) hlayers⟩

/-- Any two depths above the number of steps that are left give the same methods, in both
sessions. -/
theorem interfaceWithin_eq (h : Territory K s) (hst : Agree K s t)
    (hk : Surveyed K s names height) {depth depth' : Nat} {type : GoType} {visited : Visited}
    (htype : type.Within True K)
    (hdepth : unvisited names visited * (height + 1) + type.layers < depth)
    (hdepth' : unvisited names visited * (height + 1) + type.layers < depth') :
    s.interfaceWithin depth type visited = t.interfaceWithin depth' type visited ∧
      visited ⊆ (s.interfaceWithin depth type visited).2 := by
  -- A declared interface is left behind for good, and a literal has less layers inside.
  induction depth generalizing depth' type visited with
  | zero => omega
  | succ depth ih =>
      obtain ⟨depth', rfl⟩ : exists n, depth' = n + 1 := ⟨depth' - 1, by omega⟩
      rw [interfaceWithin, interfaceWithin, h.unalias htype, (h.agree hst).unalias htype]
      cases type with
      | named name =>
          dsimp only
          rw [hst.interfaceOf htype]
          by_cases hseen : visited.contains name.full = true
          · rw [if_pos hseen, if_pos hseen]
            exact ⟨rfl, List.Subset.refl _⟩
          · rw [if_neg hseen, if_neg hseen]
            cases hiface : s.interfaceOf? name with
            | none => exact ⟨rfl, List.subset_cons_self _ _⟩
            | some found =>
                obtain ⟨methods, embedded⟩ := found
                obtain ⟨_, _, _, hwithin⟩ := h.interfaceOf htype hiface
                have hinner : forall elem v, elem ∈ embedded -> name.full :: visited ⊆ v ->
                    s.interfaceWithin depth elem v = t.interfaceWithin depth' elem v ∧
                      v ⊆ (s.interfaceWithin depth elem v).2 := by
                  intro elem v helem hv
                  obtain ⟨hmem, hlayers⟩ := hk.interfaceOf h htype hiface helem
                  have hless : unvisited names v < unvisited names visited :=
                    unvisited_lt (fun x hx => hv (List.mem_cons_of_mem _ hx)) hmem
                      (by simpa using hseen) (hv List.mem_cons_self)
                  have hprod : (unvisited names v + 1) * (height + 1) ≤
                      unvisited names visited * (height + 1) :=
                    Nat.mul_le_mul_right _ hless
                  rw [Nat.succ_mul] at hprod
                  simp only [GoType.layers] at hdepth hdepth'
                  exact ih (GoType.within_of_embedded hwithin helem) (by omega) (by omega)
                obtain ⟨heq, hgrows⟩ := flatten_congr methods hinner
                exact ⟨heq, fun x hx => hgrows (List.mem_cons_of_mem _ hx)⟩
      | interface methods embedded =>
          refine flatten_congr methods ?_
          intro elem v helem hv
          have hlayers := GoType.layers_lt_interface methods helem
          have hprod : unvisited names v * (height + 1) ≤
              unvisited names visited * (height + 1) :=
            Nat.mul_le_mul_right _ (unvisited_mono names hv)
          exact ih (GoType.within_of_embedded htype helem) (by omega) (by omega)
      | _ => exact ⟨rfl, List.Subset.refl _⟩

/-!
# Bounds
-/

theorem mem_known_of_definition {name : TypeName} {d : TypeDef} (h : s.definition? name = some d) :
    d ∈ s.known := by
  unfold definition? at h
  split at h
  · next found hfound =>
      cases h
      exact List.mem_append_left _ (Table.mem_values_iff.mpr ⟨_, hfound⟩)
  · obtain ⟨p, hp, hd⟩ := Option.bind_eq_some_iff.mp h
    refine List.mem_append_right _ (List.mem_flatMap.mpr ⟨p, ?_, ?_⟩)
    · exact mem_packages_iff.mpr ⟨name.packagePath, package?_eq_some_iff.mp hp⟩
    · exact Table.mem_values_iff.mpr ⟨name.name, hd⟩

def knownNames (s : Session) : Finset String :=
  (s.known.map fun d => d.name.full).toFinset

theorem card_knownNames_le (s : Session) : s.knownNames.card ≤ s.known.length := by
  have hle := (s.known.map fun d => d.name.full).toFinset_card_le
  rw [List.length_map] at hle
  exact hle

def knownHeight (s : Session) : Nat :=
  GoType.layersOf (s.known.map fun d => d.underlying)

theorem Territory.surveyed (h : Territory K s) : Surveyed K s s.knownNames s.knownHeight where
  names package name d hK hd := by
    rw [← h.named package name d hK hd]
    exact List.mem_toFinset.mpr (List.mem_map_of_mem (mem_known_of_definition hd))
  height package name d _ hd :=
    GoType.layers_le_layersOf (List.mem_map_of_mem (mem_known_of_definition hd))

theorem Territory.surveyed_of_agree (h : Territory K s) (hst : Agree K s t) :
    Surveyed K s t.knownNames t.knownHeight :=
  (h.agree hst).surveyed.agree hst.symm

theorem lt_interfaceBound (s : Session) (type : GoType) :
    unvisited s.knownNames [] * (s.knownHeight + 1) + type.layers < s.interfaceBound type := by
  have hcard : unvisited s.knownNames [] ≤ s.known.length :=
    Nat.le_trans (unvisited_le_card _ _) s.card_knownNames_le
  unfold interfaceBound
  rw [GoType.layersOf]
  change _ < (s.known.length + 2) * (s.known.length + 2) * (max type.layers s.knownHeight + 1)
  generalize s.known.length = n at hcard ⊢
  generalize hlayers : max type.layers s.knownHeight + 1 = layers
  have hheight : s.knownHeight + 1 ≤ layers := by omega
  calc unvisited s.knownNames [] * (s.knownHeight + 1) + type.layers
      ≤ n * layers + type.layers :=
        Nat.add_le_add_right (Nat.mul_le_mul hcard hheight) _
    _ < n * layers + layers := by omega
    _ = (n + 1) * layers := (Nat.succ_mul n layers).symm
    _ ≤ (n + 2) * (n + 2) * layers := by
        apply Nat.mul_le_mul_right
        exact Nat.le_trans (Nat.le_succ _) (Nat.le_mul_of_pos_right _ (Nat.succ_pos _))

theorem interfaceMethods_eq (h : Territory K s) (hst : Agree K s t) {type : GoType}
    (htype : type.Within True K) : s.interfaceMethods? type = t.interfaceMethods? type := by
  -- Each bound is compared with the larger one in its own session.
  have hs := lt_interfaceBound s type
  have ht := lt_interfaceBound t type
  unfold interfaceMethods?
  rw [(interfaceWithin_eq h (Agree.refl K s) h.surveyed htype hs
      (Nat.lt_of_lt_of_le hs (Nat.le_max_left _ (t.interfaceBound type)))).1,
    (interfaceWithin_eq h hst (h.surveyed_of_agree hst) htype
      (Nat.lt_of_lt_of_le ht (Nat.le_max_right (s.interfaceBound type) _)) ht).1]

/-!
# Promotion
-/

def Inside (K : String -> String -> Prop) (here : List Reached) : Prop :=
  forall r, r ∈ here -> (GoType.named r.name).Within True K

theorem inside_embeddedTypes {viaPointer : Bool} {fields : List (Field GoType)}
    (h : (GoType.struct fields).Within True K) : Inside K (embeddedTypes viaPointer fields) := by
  intro r hr
  obtain ⟨f, hf, hfound⟩ := List.mem_filterMap.mp hr
  have htype := GoType.within_struct_iff.mp h f (List.mem_filter.mp hf).1
  split at hfound
  · next name heq =>
      cases hfound
      exact heq ▸ htype
  · next elem heq =>
      obtain ⟨name, hname, rfl⟩ := Option.map_eq_some_iff.mp hfound
      rw [heq, GoType.within_pointer_iff] at htype
      cases elem with
      | named other =>
          cases hname
          exact htype
      | _ => cases hname
  · cases hfound

/-- What one declared type contributes: nothing without a definition, the methods of an
interface, or its own methods and what it embeds. -/
theorem oneLevel_eq (h : Territory K s) {r : Reached}
    (hr : (GoType.named r.name).Within True K) :
    s.oneLevel r =
      match s.typeDef? r.name with
      | none => (Table.empty, [])
      | some d =>
          match d.underlying with
          | .interface _ _ => ((s.interfaceMethods? (.named r.name)).getD Table.empty, [])
          | underlying =>
              ((d.methods.filter fun m => r.viaPointer || !m.onPointer).foldl
                  (fun t m => t.insertNew m.name m.signature) Table.empty,
                embeddedTypes r.viaPointer (underlying.fields?.getD [])) := by
  unfold oneLevel
  cases hd : s.typeDef? r.name with
  | none => rfl
  | some d =>
      dsimp only
      rw [(h.typeDef hr hd).1]
      rfl

theorem oneLevel_agree (h : Territory K s) (hst : Agree K s t) {r : Reached}
    (hr : (GoType.named r.name).Within True K) : s.oneLevel r = t.oneLevel r := by
  rw [oneLevel_eq h hr, oneLevel_eq (h.agree hst) hr, hst.typeDef hr,
    interfaceMethods_eq h hst hr]

theorem inside_oneLevel (h : Territory K s) {r : Reached}
    (hr : (GoType.named r.name).Within True K) : Inside K (s.oneLevel r).2 := by
  rw [oneLevel_eq h hr]
  cases hd : s.typeDef? r.name with
  | none => exact List.forall_mem_nil _
  | some d =>
      have hwithin := (h.typeDef hr hd).2
      dsimp only
      cases hunderlying : d.underlying with
      | struct fields => exact inside_embeddedTypes (hunderlying ▸ hwithin)
      | _ => exact List.forall_mem_nil _

theorem Surveyed.oneLevel (hk : Surveyed K s names height) (h : Territory K s) {r : Reached}
    (hr : (GoType.named r.name).Within True K) (hinner : (s.oneLevel r).2 ≠ []) :
    r.name.full ∈ names := by
  rw [oneLevel_eq h hr] at hinner
  cases hd : s.typeDef? r.name with
  | none =>
      rw [hd] at hinner
      exact absurd rfl hinner
  | some d =>
      cases hname : r.name with
      | builtin word =>
          rw [hname] at hd
          rw [hname, hd, typeDef_of_builtin hd] at hinner
          exact absurd rfl hinner
      | declared package name =>
          rw [hname] at hd hr
          exact hk.names package name d (GoType.within_declared_iff.mp hr) hd

theorem wholeLevel_agree (h : Territory K s) (hst : Agree K s t) {here : List Reached}
    (hhere : Inside K here) (seen : Visited) : s.wholeLevel here seen = t.wholeLevel here seen := by
  induction here generalizing seen with
  | nil => rfl
  | cons r rest ih =>
      obtain ⟨hr, hrest⟩ := List.forall_mem_cons.mp hhere
      simp only [wholeLevel, oneLevel_agree h hst hr, ih hrest]

/-- What one depth of embedding leads to.  If there is more below it, then a new definition was
seen. -/
theorem wholeLevel_spec (h : Territory K s) (hk : Surveyed K s names height)
    {here : List Reached} (hhere : Inside K here) (seen : Visited) :
    Inside K (s.wholeLevel here seen).2.1 ∧ seen ⊆ (s.wholeLevel here seen).2.2 ∧
      ((s.wholeLevel here seen).2.1 ≠ [] ->
        exists name, name ∈ names ∧ name ∉ seen ∧ name ∈ (s.wholeLevel here seen).2.2) := by
  induction here generalizing seen with
  | nil => exact ⟨List.forall_mem_nil _, List.Subset.refl _, fun hne => absurd rfl hne⟩
  | cons r rest ih =>
      obtain ⟨hr, hrest⟩ := List.forall_mem_cons.mp hhere
      rw [wholeLevel]
      split
      · exact ih hrest seen
      · next hnew =>
          obtain ⟨hinside, hgrows, hfresh⟩ := ih hrest (r.name.full :: seen)
          have hold : seen ⊆ (s.wholeLevel rest (r.name.full :: seen)).2.2 :=
            fun x hx => hgrows (List.mem_cons_of_mem _ hx)
          refine ⟨List.forall_mem_append.mpr ⟨inside_oneLevel h hr, hinside⟩, hold, ?_⟩
          intro hne
          by_cases hinner : (s.oneLevel r).2 = []
          · have hdeeper : (s.wholeLevel rest (r.name.full :: seen)).2.1 ≠ [] := by
              intro hnil
              exact hne (by simp [hinner, hnil])
            obtain ⟨name, hname, hunseen, hseen⟩ := hfresh hdeeper
            exact ⟨name, hname, fun hx => hunseen (List.mem_cons_of_mem _ hx), hseen⟩
          · exact ⟨r.name.full, hk.oneLevel h hr hinner, by simpa using hnew,
              hgrows List.mem_cons_self⟩

theorem promotedWithin_nil (s : Session) (levels : Nat) (seen : Visited) :
    s.promotedWithin levels [] seen = Table.empty := by
  cases levels with
  | zero => rfl
  | succ levels => rfl

/-- Any two numbers of levels above the number of names that are left give the same methods. -/
theorem promotedWithin_eq (h : Territory K s) (hst : Agree K s t)
    (hk : Surveyed K s names height) {levels levels' : Nat} {here : List Reached}
    {seen : Visited} (hhere : Inside K here) (hlevels : unvisited names seen < levels)
    (hlevels' : unvisited names seen < levels') :
    s.promotedWithin levels here seen = t.promotedWithin levels' here seen := by
  induction levels generalizing levels' here seen with
  | zero => omega
  | succ levels ih =>
      obtain ⟨levels', rfl⟩ : exists n, levels' = n + 1 := ⟨levels' - 1, by omega⟩
      obtain ⟨hinside, hgrows, hfresh⟩ := wholeLevel_spec h hk hhere seen
      rw [promotedWithin, promotedWithin, ← wholeLevel_agree h hst hhere seen]
      split
      · rfl
      · dsimp only
        congr 1
        by_cases hdeeper : (s.wholeLevel here seen).2.1 = []
        · rw [hdeeper, promotedWithin_nil, promotedWithin_nil]
        · obtain ⟨name, hname, hunseen, hseen⟩ := hfresh hdeeper
          have hless := unvisited_lt hgrows hname hunseen hseen
          exact ih hinside (Nat.lt_of_lt_of_le hless (Nat.le_of_lt_succ hlevels))
            (Nat.lt_of_lt_of_le hless (Nat.le_of_lt_succ hlevels'))

theorem promotedMethods_eq (h : Territory K s) (hst : Agree K s t) {here : List Reached}
    (hhere : Inside K here) : s.promotedMethods here = t.promotedMethods here := by
  have hbound : forall u : Session, unvisited u.knownNames [] < u.known.length + 3 := by
    intro u
    have hcard := Nat.le_trans (unvisited_le_card u.knownNames []) u.card_knownNames_le
    omega
  unfold promotedMethods
  rw [promotedWithin_eq h (Agree.refl K s) h.surveyed hhere (hbound s)
      (Nat.lt_of_lt_of_le (hbound s) (Nat.le_max_left _ (t.known.length + 3))),
    promotedWithin_eq h hst (h.surveyed_of_agree hst) hhere
      (Nat.lt_of_lt_of_le (hbound t) (Nat.le_max_right (s.known.length + 3) _)) (hbound t)]

/-!
# Satisfaction
-/

theorem methodSet_named_eq (h : Territory K s) (hst : Agree K s t) {name : TypeName}
    (hname : (GoType.named name).Within True K) :
    s.methodSet (.named name) = t.methodSet (.named name) := by
  have hreached : Inside K [⟨name, false⟩] := List.forall_mem_singleton.mpr hname
  unfold methodSet
  rw [h.unalias hname, (h.agree hst).unalias hname]
  simp only [namedMethods, hst.typeDef hname, interfaceMethods_eq h hst hname,
    promotedMethods_eq h hst hreached]

theorem methodSet_pointer_eq (h : Territory K s) (hst : Agree K s t) {name : TypeName}
    (hname : (GoType.named name).Within True K) :
    s.methodSet (.pointer (.named name)) = t.methodSet (.pointer (.named name)) := by
  have hreached : Inside K [⟨name, true⟩] := List.forall_mem_singleton.mpr hname
  have hpointer := GoType.within_pointer_iff.mpr hname
  unfold methodSet
  rw [h.unalias hpointer, (h.agree hst).unalias hpointer]
  simp only [pointerMethods, h.unalias hname, (h.agree hst).unalias hname, hst.typeDef hname,
    promotedMethods_eq h hst hreached]

theorem implementation_eq (h : Territory K s) (hst : Agree K s t) {name : TypeName}
    (hname : (GoType.named name).Within True K) (required : MethodSet) :
    s.implementation? name required = t.implementation? name required := by
  unfold implementation? satisfies
  rw [methodSet_named_eq h hst hname, methodSet_pointer_eq h hst hname]

end Session
end GoAtlas
