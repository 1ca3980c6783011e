import GoAtlas.Proofs.Session.MethodSets
import Mathlib.Logic.Relation

/-!
# Embedded types

An interface has its own methods and those of the interfaces that it embeds, by name, through
aliases or written out in place.  Which interfaces these are is told here as reachability: one
type embeds another, and the chain goes on from there.
-/

namespace GoAtlas

def CacheEntry.types : CacheEntry -> Table TypeDef
  | resolved p => p.types
  | _ => Table.empty

namespace Session

variable {s : Session}

/-!
# Aliases
-/

def Renames (s : Session) (type target : GoType) : Prop :=
  exists name d, type = .named name ∧ s.typeDef? name = some d ∧ d.isAlias = true ∧
    d.underlying = target

inductive AliasPath (s : Session) : Nat -> GoType -> GoType -> Prop where
  | here (type : GoType) : AliasPath s 0 type type
  | step {steps : Nat} {type next target : GoType} (h : s.Renames type next)
      (rest : AliasPath s steps next target) : AliasPath s (steps + 1) type target

theorem unaliasWithin_of_renames {type target : GoType} (h : s.Renames type target)
    (steps : Nat) : s.unaliasWithin (steps + 1) type = s.unaliasWithin steps target := by
  obtain ⟨name, d, rfl, hd, halias, rfl⟩ := h
  have hfound : (GoType.named name).name?.bind s.typeDef? = some d := hd
  unfold unaliasWithin
  rw [hfound]
  dsimp only
  rw [if_pos halias]
  cases steps with
  | zero => rfl
  | succ steps => rfl

theorem unaliasWithin_of_not_renames {type : GoType}
    (h : forall target, ¬ s.Renames type target) (steps : Nat) :
    s.unaliasWithin steps type = type := by
  cases steps with
  | zero => rfl
  | succ steps =>
      unfold unaliasWithin
      split
      · next d hd =>
          obtain ⟨name, hname, hdef⟩ := Option.bind_eq_some_iff.mp hd
          split
          · next halias =>
              cases type with
              | named other =>
                  cases hname
                  exact absurd ⟨name, d, rfl, hdef, halias, rfl⟩ (h d.underlying)
              | _ => cases hname
          · rfl
      · rfl

theorem not_renames_of_name? {type target : GoType} (h : type.name? = none) :
    ¬ s.Renames type target := by
  rintro ⟨name, d, rfl, _⟩
  cases h

theorem unaliasWithin_of_name? {type : GoType} (h : type.name? = none) (steps : Nat) :
    s.unaliasWithin steps type = type :=
  unaliasWithin_of_not_renames (fun _ => not_renames_of_name? h) steps

theorem AliasPath.unaliasWithin {steps : Nat} {type target : GoType}
    (h : s.AliasPath steps type target) (more : Nat) :
    s.unaliasWithin (steps + more) type = s.unaliasWithin more target := by
  induction h with
  | here type => rw [Nat.zero_add]
  | step hstep _ ih => rw [Nat.succ_add, unaliasWithin_of_renames hstep, ih]

theorem aliasPath_unaliasWithin (s : Session) (limit : Nat) (type : GoType) :
    exists steps, steps ≤ limit ∧ s.AliasPath steps type (s.unaliasWithin limit type) := by
  induction limit generalizing type with
  | zero => exact ⟨0, Nat.le_refl 0, AliasPath.here type⟩
  | succ limit ih =>
      by_cases h : exists target, s.Renames type target
      · obtain ⟨target, htarget⟩ := h
        obtain ⟨steps, hsteps, hpath⟩ := ih target
        rw [unaliasWithin_of_renames htarget]
        exact ⟨steps + 1, Nat.succ_le_succ hsteps, AliasPath.step htarget hpath⟩
      · rw [unaliasWithin_of_not_renames (not_exists.mp h)]
        exact ⟨0, Nat.zero_le _, AliasPath.here type⟩

/-!
# Interfaces that a type leads to
-/

/-- Within the limit on aliases the type leads to an interface that is written out, or to a name
that is declared as one. -/
def Shows (s : Session) (type : GoType) (methods : List (InterfaceMethod GoType))
    (embedded : List GoType) : Prop :=
  exists steps target, steps ≤ aliasLimit ∧ s.AliasPath steps type target ∧
    (target = .interface methods embedded ∨
      exists name, target = .named name ∧ s.interfaceOf? name = some (methods, embedded))

def interfaceBehind? (s : Session) (type : GoType) :
    Option (List (InterfaceMethod GoType) × List GoType) :=
  match s.unalias type with
  | .named name => s.interfaceOf? name
  | .interface methods embedded => some (methods, embedded)
  | _ => none

theorem interfaceBehind?_of_named {type : GoType} {name : TypeName}
    (h : s.unalias type = .named name) : s.interfaceBehind? type = s.interfaceOf? name := by
  unfold interfaceBehind?
  rw [h]

theorem interfaceBehind?_of_written {type : GoType} {methods : List (InterfaceMethod GoType)}
    {embedded : List GoType} (h : s.unalias type = .interface methods embedded) :
    s.interfaceBehind? type = some (methods, embedded) := by
  unfold interfaceBehind?
  rw [h]

theorem interfaceOf?_eq_some_iff {name : TypeName} {methods : List (InterfaceMethod GoType)}
    {embedded : List GoType} : s.interfaceOf? name = some (methods, embedded) ↔
      exists d, s.typeDef? name = some d ∧ d.underlying = .interface methods embedded := by
  unfold interfaceOf?
  cases s.typeDef? name with
  | none => simp
  | some d =>
      cases hd : d.underlying with
      | interface ms es => simp [hd]
      | _ => simp [hd]

theorem shows_iff {type : GoType} {methods : List (InterfaceMethod GoType)}
    {embedded : List GoType} :
    s.Shows type methods embedded ↔ s.interfaceBehind? type = some (methods, embedded) := by
  constructor
  · rintro ⟨steps, target, hsteps, hpath, htarget⟩
    obtain ⟨more, hmore⟩ := Nat.exists_eq_add_of_le hsteps
    have hunalias : s.unalias type = s.unaliasWithin more target := by
      unfold Session.unalias
      rw [hmore, hpath.unaliasWithin]
    unfold interfaceBehind?
    rw [hunalias]
    rcases htarget with rfl | ⟨name, rfl, hname⟩
    · rw [unaliasWithin_of_name? rfl]
    · obtain ⟨d, hd, hunderlying⟩ := interfaceOf?_eq_some_iff.mp hname
      cases more with
      | zero => exact hname
      | succ more =>
          cases halias : d.isAlias with
          | true =>
              rw [unaliasWithin_of_renames ⟨name, d, rfl, hd, halias, hunderlying⟩,
                unaliasWithin_of_name? rfl]
          | false =>
              have hproper : forall target, ¬ s.Renames (.named name) target := by
                rintro target ⟨other, e, hother, he, hrenames, _⟩
                cases hother
                cases hd.symm.trans he
                cases halias.symm.trans hrenames
              rw [unaliasWithin_of_not_renames hproper]
              exact hname
  · intro h
    obtain ⟨steps, hsteps, hpath⟩ := s.aliasPath_unaliasWithin aliasLimit type
    refine ⟨steps, _, hsteps, hpath, ?_⟩
    unfold interfaceBehind? Session.unalias at h
    cases htarget : s.unaliasWithin aliasLimit type with
    | named name =>
        rw [htarget] at h
        exact Or.inr ⟨name, rfl, h⟩
    | interface ms es =>
        rw [htarget] at h
        cases h
        exact Or.inl rfl
    | _ =>
        rw [htarget] at h
        cases h

def Embeds (s : Session) (type elem : GoType) : Prop :=
  exists methods embedded, s.Shows type methods embedded ∧ elem ∈ embedded

def Reaches (s : Session) : GoType -> GoType -> Prop :=
  Relation.ReflTransGen s.Embeds

def Declares (s : Session) (type : GoType) (method : String) (signature : Signature GoType) :
    Prop :=
  exists methods embedded, s.Shows type methods embedded ∧ ⟨method, signature⟩ ∈ methods

/-!
# Aliases that need themselves
-/

/-- The second type stands behind the first, an alias, or is embedded in it as it is written. -/
inductive Exposes (s : Session) : GoType -> GoType -> Prop where
  | renamed {type target : GoType} (h : s.Renames type target) : Exposes s type target
  | written {methods : List (InterfaceMethod GoType)} {embedded : List GoType} {elem : GoType}
      (h : elem ∈ embedded) : Exposes s (.interface methods embedded) elem

/-- No alias is defined through itself. -/
def Unlooped (s : Session) : Prop :=
  forall name d, s.typeDef? name = some d -> d.isAlias = true ->
    ¬ Relation.TransGen s.Exposes (.named name) (.named name)

/-- Names at which aliases end on the way from the type, and which are written alike, have the
same definition. -/
def Legible (s : Session) (root : GoType) : Prop :=
  forall type other name name', s.Reaches root type -> s.Reaches root other ->
    s.unalias type = .named name -> s.unalias other = .named name' ->
      name.full = name'.full -> s.typeDef? name = s.typeDef? name'

theorem exposes_of_named {name : TypeName} {target : GoType} (h : s.Exposes (.named name) target) :
    exists d, s.typeDef? name = some d ∧ d.isAlias = true ∧ d.underlying = target := by
  cases h with
  | renamed h =>
      obtain ⟨_, d, hname, hd⟩ := h
      cases hname
      exact ⟨d, hd⟩

theorem AliasPath.exposes {steps : Nat} {type target : GoType} (h : s.AliasPath steps type target) :
    Relation.ReflTransGen s.Exposes type target := by
  induction h with
  | here type => exact Relation.ReflTransGen.refl
  | step hstep _ ih => exact Relation.ReflTransGen.head (Exposes.renamed hstep) ih

theorem not_exposes_again (h : s.Unlooped) {name other : TypeName} {d : TypeDef}
    (hd : s.typeDef? name = some d) (halias : d.isAlias = true)
    (hother : s.typeDef? other = some d) :
    ¬ Relation.TransGen s.Exposes (.named other) (.named name) := by
  intro hpath
  obtain ⟨next, hnext, hrest⟩ := Relation.TransGen.head'_iff.mp hpath
  obtain ⟨e, he, _, hunderlying⟩ := exposes_of_named hnext
  cases hother.symm.trans he
  have hrenames : s.Renames (.named name) next := ⟨name, d, rfl, hd, halias, hunderlying⟩
  exact h name d hd halias (Relation.TransGen.head' (Exposes.renamed hrenames) hrest)

/-!
# Names with a definition
-/

def definedNames (s : Session) : List String :=
  s.index.table.keys ++ s.cache.entries.flatMap fun entry =>
    entry.2.types.keys.map fun name => (TypeName.declared entry.1 name).full

theorem values_of_packages (s : Session) :
    (s.packages.flatMap fun p => p.types.values) =
      s.cache.entries.flatMap fun entry => entry.2.types.values := by
  unfold packages Table.values
  generalize s.cache.entries = entries
  induction entries with
  | nil => rfl
  | cons entry rest ih =>
      obtain ⟨path, entry⟩ := entry
      cases entry with
      | resolved p => exact congrArg (p.types.values ++ ·) ih
      | _ => exact ih

theorem length_definedNames (s : Session) : s.definedNames.length = s.known.length := by
  have hkeys : forall types : Table TypeDef, types.keys.length = types.values.length := by
    intro types
    unfold Table.keys Table.values
    rw [List.length_map, List.length_map]
  unfold definedNames known
  rw [values_of_packages, List.length_append, List.length_append, hkeys, List.length_flatMap,
    List.length_flatMap]
  simp only [List.length_map, hkeys]
  rfl

theorem full_mem_definedNames {package name : String} {d : TypeDef}
    (h : s.typeDef? (.declared package name) = some d) :
    (TypeName.declared package name).full ∈ s.definedNames := by
  change s.definition? (.declared package name) = some d at h
  unfold definition? at h
  unfold definedNames
  split at h
  · next found hfound =>
      exact List.mem_append_left _ (Table.mem_keys_iff.mpr ⟨found, hfound⟩)
  · obtain ⟨p, hp, hd⟩ := Option.bind_eq_some_iff.mp h
    refine List.mem_append_right _ (List.mem_flatMap.mpr ⟨(package, .resolved p), ?_, ?_⟩)
    · exact Table.mem_entries_iff.mpr (package?_eq_some_iff.mp hp)
    · exact List.mem_map_of_mem (Table.mem_keys_iff.mpr ⟨d, hd⟩)

theorem unvisited_definedNames_le (s : Session) (visited : Visited) :
    unvisited s.definedNames.toFinset visited ≤ s.known.length := by
  rw [← s.length_definedNames]
  exact Nat.le_trans (unvisited_le_card _ _) (List.toFinset_card_le _)

theorem mem_known_of_alias {name : TypeName} {d : TypeDef} (hd : s.typeDef? name = some d)
    (halias : d.isAlias = true) : d ∈ s.known := by
  cases name with
  | builtin word =>
      rw [typeDef_of_builtin hd] at halias
      cases halias
  | declared package name => exact mem_known_of_definition hd

theorem unalias_cases (s : Session) (type : GoType) :
    s.unalias type = type ∨
      (exists name d, type = .named name ∧ s.typeDef? name = some d ∧ d.isAlias = true) ∧
        Relation.TransGen s.Exposes type (s.unalias type) ∧
        (s.unalias type).layers ≤ s.knownHeight := by
  have hlayers : forall {steps : Nat} {first next target : GoType}, s.Renames first next ->
      s.AliasPath steps next target -> target.layers ≤ s.knownHeight := by
    intro steps first next target hfirst hpath
    induction hpath generalizing first with
    | here target =>
        obtain ⟨name, d, _, hd, halias, rfl⟩ := hfirst
        exact GoType.layers_le_layersOf (List.mem_map_of_mem (mem_known_of_alias hd halias))
    | step hstep _ ih => exact ih hstep
  obtain ⟨steps, _, hpath⟩ := s.aliasPath_unaliasWithin aliasLimit type
  change s.AliasPath steps type (s.unalias type) at hpath
  generalize s.unalias type = target at hpath ⊢
  cases hpath with
  | here => exact Or.inl rfl
  | step hstep hrest =>
      have hlow := hlayers hstep hrest
      have hpath := Relation.TransGen.head' (Exposes.renamed hstep) hrest.exposes
      obtain ⟨name, d, hname, hd, halias, _⟩ := hstep
      exact Or.inr ⟨⟨name, d, hname, hd, halias⟩, hpath, hlow⟩

end Session
end GoAtlas
