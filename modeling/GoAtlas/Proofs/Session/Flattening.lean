import GoAtlas.Proofs.Session.Embedding
import Mathlib.Data.List.Perm.Subperm
import Mathlib.Logic.Relation
import Mathlib.Tactic.Linarith
import Mathlib.Tactic.Ring

/-!
# The methods of an interface

The search for methods goes through embedded types one after another and keeps a list of the names
it came by.  It loses nothing when interfaces share what they embed or embed one another: the
methods of an interface are those of all interfaces that it reaches.
-/

namespace GoAtlas
namespace Session

variable {s : Session}

/-!
# What a search has gone through
-/

/-- Of all that is written out in the type, as far as names, the methods were found and the names
were visited. -/
inductive Covered (s : Session) (found : MethodSet) (visited : Visited) : GoType -> Prop where
  | named {type : GoType} {name : TypeName} (h : s.unalias type = .named name)
      (hvisited : name.full ∈ visited) : Covered s found visited type
  | written {type : GoType} {methods : List (InterfaceMethod GoType)} {embedded : List GoType}
      (h : s.unalias type = .interface methods embedded)
      (hmethods : forall m, m ∈ methods -> found.contains m.name = true)
      (hembedded : forall elem, elem ∈ embedded -> Covered s found visited elem) :
      Covered s found visited type
  | bare {type : GoType} (h : s.interfaceBehind? type = none) : Covered s found visited type

def Expanded (s : Session) (found : MethodSet) (visited : Visited) (name : TypeName) : Prop :=
  forall methods embedded, s.interfaceOf? name = some (methods, embedded) ->
    (forall m, m ∈ methods -> found.contains m.name = true) ∧
      forall elem, elem ∈ embedded -> Covered s found visited elem

/-- A search from one table and one list of names to another has found nothing that it should
not, has lost nothing, and has gone through the interfaces of all names it came by. -/
structure Advances (s : Session) (root : GoType) (start : List GoType) (before after : MethodSet)
    (old new : Visited) : Prop where
  grows : old ⊆ new
  keeps : forall method, before.contains method = true -> after.contains method = true
  found : forall method signature, after.get? method = some signature ->
    before.get? method = some signature ∨
      exists first type, first ∈ start ∧ s.Reaches first type ∧ s.Declares type method signature
  covered : forall first, first ∈ start -> Covered s after new first
  expanded : forall full, full ∈ new -> full ∉ old -> exists type name, name.full = full ∧
    s.Reaches root type ∧ s.unalias type = .named name ∧ s.Expanded after new name

theorem get?_ownMethods {methods : List (InterfaceMethod GoType)} {method : String}
    {signature : Signature GoType} (h : (ownMethods methods).get? method = some signature) :
    ⟨method, signature⟩ ∈ methods := by
  rcases Table.get?_insertPairs_cases h with hnone | hpair
  · cases hnone
  · obtain ⟨m, hm, heq⟩ := List.mem_map.mp hpair
    cases heq
    exact hm

theorem contains_ownMethods {methods : List (InterfaceMethod GoType)} {m : InterfaceMethod GoType}
    (h : m ∈ methods) : (ownMethods methods).contains m.name = true := by
  refine Table.contains_insertPairs_iff.mpr (Or.inr ?_)
  rw [List.map_map]
  exact List.mem_map_of_mem h

variable {root : GoType} {found found' : MethodSet} {visited visited' : Visited}

theorem Covered.mono {type : GoType}
    (hfound : forall method, found.contains method = true -> found'.contains method = true)
    (hvisited : visited ⊆ visited') (h : Covered s found visited type) :
    Covered s found' visited' type := by
  induction h with
  | named h hname => exact Covered.named h (hvisited hname)
  | written h hmethods _ ih =>
      exact Covered.written h (fun m hm => hfound m.name (hmethods m hm)) ih
  | bare h => exact Covered.bare h

theorem Expanded.mono {name : TypeName}
    (hfound : forall method, found.contains method = true -> found'.contains method = true)
    (hvisited : visited ⊆ visited') (h : Expanded s found visited name) :
    Expanded s found' visited' name := by
  intro methods embedded hiface
  obtain ⟨hmethods, hembedded⟩ := h methods embedded hiface
  exact ⟨fun m hm => hfound m.name (hmethods m hm),
    fun elem helem => (hembedded elem helem).mono hfound hvisited⟩

theorem Advances.refl (s : Session) (root : GoType) (found : MethodSet) (visited : Visited) :
    Advances s root [] found found visited visited where
  grows := List.Subset.refl visited
  keeps _ h := h
  found _ _ h := Or.inl h
  covered := List.forall_mem_nil _
  expanded _ hnew hold := absurd hnew hold

theorem Advances.trans {start next : List GoType} {before between after : MethodSet}
    {old mid new : Visited} (h : Advances s root start before between old mid)
    (h' : Advances s root next between after mid new) :
    Advances s root (start ++ next) before after old new where
  grows := List.Subset.trans h.grows h'.grows
  keeps method hmethod := h'.keeps method (h.keeps method hmethod)
  found method signature hfound := by
    rcases h'.found method signature hfound with hold | ⟨first, type, hfirst, htype⟩
    · rcases h.found method signature hold with hbefore | ⟨first, type, hfirst, htype⟩
      · exact Or.inl hbefore
      · exact Or.inr ⟨first, type, List.mem_append_left _ hfirst, htype⟩
    · exact Or.inr ⟨first, type, List.mem_append_right _ hfirst, htype⟩
  covered first hfirst := by
    rcases List.mem_append.mp hfirst with hstart | hnext
    · exact (h.covered first hstart).mono h'.keeps h'.grows
    · exact h'.covered first hnext
  expanded full hnew hold := by
    by_cases hmid : full ∈ mid
    · obtain ⟨type, name, hname, hreach, hunalias, hexpanded⟩ := h.expanded full hmid hold
      exact ⟨type, name, hname, hreach, hunalias, hexpanded.mono h'.keeps h'.grows⟩
    · exact h'.expanded full hnew hmid

theorem Advances.addNew {start : List GoType} {new : MethodSet}
    (h : Advances s root start Table.empty new visited visited') (before : MethodSet) :
    Advances s root start before (before.addNew new) visited visited' := by
  have hnew : forall method, new.contains method = true ->
      (before.addNew new).contains method = true := by
    intro method hmethod
    unfold Table.contains at hmethod ⊢
    rw [Table.get?_addNew, Option.isSome_or, hmethod, Bool.or_true]
  refine ⟨h.grows, ?_, ?_, ?_, ?_⟩
  · intro method hmethod
    unfold Table.contains at hmethod ⊢
    rw [Table.get?_addNew, Option.isSome_or, hmethod, Bool.true_or]
  · intro method signature hfound
    rw [Table.get?_addNew] at hfound
    rcases Option.or_eq_some_iff.mp hfound with hold | ⟨_, hfresh⟩
    · exact Or.inl hold
    · rcases h.found method signature hfresh with hempty | hreached
      · cases hempty
      · exact Or.inr hreached
  · intro first hfirst
    exact (h.covered first hfirst).mono hnew (List.Subset.refl _)
  · intro full hfull hold
    obtain ⟨type, name, hname, hreach, hunalias, hexpanded⟩ := h.expanded full hfull hold
    exact ⟨type, name, hname, hreach, hunalias, hexpanded.mono hnew (List.Subset.refl _)⟩

theorem advances_addEmbedded {inner : GoType -> Visited -> Option MethodSet × Visited}
    {embedded : List GoType}
    (h : forall elem v, elem ∈ embedded -> visited ⊆ v ->
      Advances s root [elem] Table.empty ((inner elem v).1.getD Table.empty) v (inner elem v).2)
    (acc : MethodSet × Visited) (hacc : visited ⊆ acc.2) :
    Advances s root embedded acc.1 (addEmbedded inner embedded acc).1 acc.2
      (addEmbedded inner embedded acc).2 := by
  induction embedded generalizing acc with
  | nil => exact Advances.refl s root acc.1 acc.2
  | cons elem rest ih =>
      have hfirst := h elem acc.2 List.mem_cons_self hacc
      have hrest := ih (fun other v hother => h other v (List.mem_cons_of_mem _ hother))
        (acc.1.addNew ((inner elem acc.2).1.getD Table.empty), (inner elem acc.2).2)
        (List.Subset.trans hacc hfirst.grows)
      exact (hfirst.addNew acc.1).trans hrest

theorem Advances.declared {type : GoType} {methods : List (InterfaceMethod GoType)}
    {embedded : List GoType} (hshows : s.Shows type methods embedded)
    (h : Advances s root embedded (ownMethods methods) found visited visited') {method : String}
    {signature : Signature GoType} (hfound : found.get? method = some signature) :
    exists other, s.Reaches type other ∧ s.Declares other method signature := by
  rcases h.found method signature hfound with hown | ⟨elem, other, helem, hreach, hdeclares⟩
  · exact ⟨type, Relation.ReflTransGen.refl, methods, embedded, hshows, get?_ownMethods hown⟩
  · exact ⟨other, Relation.ReflTransGen.head ⟨methods, embedded, hshows, helem⟩ hreach, hdeclares⟩

theorem Advances.of_written {type : GoType} {methods : List (InterfaceMethod GoType)}
    {embedded : List GoType} (hunalias : s.unalias type = .interface methods embedded)
    (h : Advances s root embedded (ownMethods methods) found visited visited') :
    Advances s root [type] Table.empty found visited visited' where
  grows := h.grows
  keeps _ hmethod := nomatch hmethod
  found method signature hfound := by
    have hshows : s.Shows type methods embedded :=
      shows_iff.mpr (interfaceBehind?_of_written hunalias)
    obtain ⟨other, hreach, hdeclares⟩ := h.declared hshows hfound
    exact Or.inr ⟨type, other, List.mem_singleton_self type, hreach, hdeclares⟩
  covered first hfirst := by
    rw [List.mem_singleton.mp hfirst]
    exact Covered.written hunalias (fun m hm => h.keeps m.name (contains_ownMethods hm)) h.covered
  expanded := h.expanded

theorem Advances.of_named {type : GoType} {name : TypeName}
    {methods : List (InterfaceMethod GoType)} {embedded : List GoType}
    (hreach : s.Reaches root type) (hunalias : s.unalias type = .named name)
    (hiface : s.interfaceOf? name = some (methods, embedded))
    (h : Advances s root embedded (ownMethods methods) found (name.full :: visited) visited') :
    Advances s root [type] Table.empty found visited visited' where
  grows _ hfull := h.grows (List.mem_cons_of_mem _ hfull)
  keeps _ hmethod := nomatch hmethod
  found method signature hfound := by
    have hshows : s.Shows type methods embedded :=
      shows_iff.mpr ((interfaceBehind?_of_named hunalias).trans hiface)
    obtain ⟨other, hother, hdeclares⟩ := h.declared hshows hfound
    exact Or.inr ⟨type, other, List.mem_singleton_self type, hother, hdeclares⟩
  covered first hfirst := by
    rw [List.mem_singleton.mp hfirst]
    exact Covered.named hunalias (h.grows List.mem_cons_self)
  expanded full hnew hold := by
    by_cases hfull : full = name.full
    · refine ⟨type, name, hfull.symm, hreach, hunalias, ?_⟩
      intro ms es hother
      cases hiface.symm.trans hother
      exact ⟨fun m hm => h.keeps m.name (contains_ownMethods hm), h.covered⟩
    · exact h.expanded full hnew (List.not_mem_cons_of_ne_of_not_mem hfull hold)

theorem advances_of_visited {type : GoType} {name : TypeName} (hreach : s.Reaches root type)
    (hunalias : s.unalias type = .named name) (hgrows : visited ⊆ visited')
    (hname : name.full ∈ visited')
    (hnew : forall full, full ∈ visited' -> full ∉ visited -> full = name.full ∧
      s.interfaceOf? name = none) :
    Advances s root [type] Table.empty Table.empty visited visited' where
  grows := hgrows
  keeps _ hmethod := hmethod
  found _ _ hfound := nomatch hfound
  covered first hfirst := by
    rw [List.mem_singleton.mp hfirst]
    exact Covered.named hunalias hname
  expanded full hfull hold := by
    obtain ⟨heq, hnone⟩ := hnew full hfull hold
    refine ⟨type, name, heq.symm, hreach, hunalias, ?_⟩
    intro methods embedded hiface
    cases hnone.symm.trans hiface

/-!
# The depth of a search

A declared interface is left behind for good.  Between two of them aliases are followed, none of
them twice, and an interface that is written out has less layers inside.
-/

/-- Aliases, each of them once, through whose definitions the type was come to. -/
structure Followed (s : Session) (trail : List TypeDef) (type : GoType) : Prop where
  nodup : trail.Nodup
  leads : forall d, d ∈ trail -> d.isAlias = true ∧ exists name, s.typeDef? name = some d ∧
    Relation.TransGen s.Exposes (.named name) type

def room (s : Session) (visited : Visited) (trail : List TypeDef) (type : GoType) : Nat :=
  unvisited s.definedNames.toFinset visited * ((s.known.length + 1) * (s.knownHeight + 1)) +
    (s.known.length - trail.length) * (s.knownHeight + 1) + type.layers

theorem followed_nil (s : Session) (type : GoType) : s.Followed [] type where
  nodup := List.nodup_nil
  leads := List.forall_mem_nil _

variable {trail : List TypeDef}

theorem Followed.length_le {type : GoType} (h : s.Followed trail type) :
    trail.length ≤ s.known.length := by
  apply (List.subperm_of_subset h.nodup _).length_le
  intro d hd
  obtain ⟨halias, name, hname, _⟩ := h.leads d hd
  exact mem_known_of_alias hname halias

theorem Followed.onward {type next : GoType} (h : s.Followed trail type)
    (hnext : Relation.ReflTransGen s.Exposes type next) : s.Followed trail next where
  nodup := h.nodup
  leads d hd := by
    obtain ⟨halias, name, hname, hleads⟩ := h.leads d hd
    exact ⟨halias, name, hname, hleads.trans_left hnext⟩

theorem Followed.cons (hunlooped : s.Unlooped) {name : TypeName} {d : TypeDef} {next : GoType}
    (h : s.Followed trail (.named name)) (hd : s.typeDef? name = some d)
    (halias : d.isAlias = true) (hnext : Relation.TransGen s.Exposes (.named name) next) :
    s.Followed (d :: trail) next where
  nodup := by
    refine List.nodup_cons.mpr ⟨?_, h.nodup⟩
    intro hmem
    obtain ⟨_, other, hother, hleads⟩ := h.leads d hmem
    exact not_exposes_again hunlooped hd halias hother hleads
  leads e he := by
    rcases List.mem_cons.mp he with rfl | hrest
    · exact ⟨halias, name, hd, hnext⟩
    · obtain ⟨hrenames, other, hother, hleads⟩ := h.leads e hrest
      exact ⟨hrenames, other, hother, hleads.trans hnext⟩

/-- Inside a declared interface that was not visited yet there is less room. -/
theorem room_named {type elem : GoType} {name : TypeName}
    {methods : List (InterfaceMethod GoType)} {embedded : List GoType}
    (hiface : s.interfaceOf? name = some (methods, embedded)) (helem : elem ∈ embedded)
    (hvisited : name.full :: visited ⊆ visited') (hold : name.full ∉ visited) :
    s.room visited' [] elem < s.room visited trail type := by
  obtain ⟨d, hd, hunderlying⟩ := interfaceOf?_eq_some_iff.mp hiface
  cases name with
  | builtin word =>
      rw [typeDef_of_builtin hd] at hunderlying
      cases hunderlying
      cases helem
  | declared package name =>
      have hlayers : elem.layers < s.knownHeight := by
        have hinside := GoType.layers_lt_interface methods helem
        rw [← hunderlying] at hinside
        exact Nat.lt_of_lt_of_le hinside
          (GoType.layers_le_layersOf (List.mem_map_of_mem (mem_known_of_definition hd)))
      have hless : unvisited s.definedNames.toFinset visited' <
          unvisited s.definedNames.toFinset visited :=
        unvisited_lt (fun x hx => hvisited (List.mem_cons_of_mem _ hx))
          (List.mem_toFinset.mpr (full_mem_definedNames hd)) hold (hvisited List.mem_cons_self)
      have hwidth := Nat.succ_mul s.known.length (s.knownHeight + 1)
      unfold room
      rw [List.length_nil, Nat.sub_zero]
      generalize (s.known.length + 1) * (s.knownHeight + 1) = width at hwidth ⊢
      have hprod := Nat.mul_le_mul_right width (Nat.succ_le_of_lt hless)
      rw [Nat.succ_mul] at hprod
      omega

/-- Inside an interface that is written out there is less room, whether it stands there itself or
behind an alias. -/
theorem room_written (hunlooped : s.Unlooped) {type elem : GoType}
    {methods : List (InterfaceMethod GoType)} {embedded : List GoType}
    (htrail : s.Followed trail type) (hunalias : s.unalias type = .interface methods embedded)
    (helem : elem ∈ embedded) (hvisited : visited ⊆ visited') :
    exists trail', s.Followed trail' elem ∧
      s.room visited' trail' elem < s.room visited trail type := by
  have hinside := GoType.layers_lt_interface methods helem
  have hwritten : s.Exposes (.interface methods embedded) elem := Exposes.written helem
  have hprod := Nat.mul_le_mul_right ((s.known.length + 1) * (s.knownHeight + 1))
    (unvisited_mono s.definedNames.toFinset hvisited)
  rcases s.unalias_cases type with hself | ⟨⟨name, d, rfl, hd, halias⟩, hexposes, hlow⟩
  · rw [hunalias] at hself
    subst hself
    refine ⟨trail, htrail.onward (Relation.ReflTransGen.single hwritten), ?_⟩
    unfold room
    omega
  · rw [hunalias] at hexposes hlow
    have hlonger := htrail.cons hunlooped hd halias (hexposes.tail hwritten)
    refine ⟨d :: trail, hlonger, ?_⟩
    have hlength := hlonger.length_le
    rw [List.length_cons] at hlength
    obtain ⟨left, hleft⟩ := Nat.exists_eq_add_of_le hlength
    have hbefore : s.known.length - trail.length = left + 1 := by omega
    have hafter : s.known.length - (d :: trail).length = left := by
      rw [List.length_cons]
      omega
    unfold room
    rw [hbefore, hafter, Nat.succ_mul left]
    omega

theorem room_lt_interfaceBound (s : Session) (type : GoType) :
    s.room [] [] type < s.interfaceBound type := by
  have hcard := s.unvisited_definedNames_le []
  unfold room interfaceBound
  rw [GoType.layersOf]
  change _ < (s.known.length + 2) * (s.known.length + 2) * (max type.layers s.knownHeight + 1)
  rw [List.length_nil, Nat.sub_zero]
  generalize s.known.length = n at hcard ⊢
  generalize hlayers : max type.layers s.knownHeight + 1 = layers
  have hheight : s.knownHeight + 1 ≤ layers := by omega
  calc unvisited s.definedNames.toFinset [] * ((n + 1) * (s.knownHeight + 1)) +
        n * (s.knownHeight + 1) + type.layers
      ≤ n * ((n + 1) * layers) + n * layers + type.layers :=
        Nat.add_le_add_right (Nat.add_le_add (Nat.mul_le_mul hcard (Nat.mul_le_mul_left _ hheight))
          (Nat.mul_le_mul_left _ hheight)) _
    _ < n * ((n + 1) * layers) + n * layers + layers := by omega
    _ = (n * (n + 1) + n + 1) * layers := by ring
    _ ≤ (n + 2) * (n + 2) * layers := by
        apply Nat.mul_le_mul_right
        nlinarith

theorem advances_interfaceWithin (hunlooped : s.Unlooped) {depth : Nat} {type : GoType}
    (hreach : s.Reaches root type) (htrail : s.Followed trail type)
    (hdepth : s.room visited trail type < depth) :
    Advances s root [type] Table.empty
      ((s.interfaceWithin depth type visited).1.getD Table.empty) visited
      (s.interfaceWithin depth type visited).2 := by
  induction depth generalizing type visited trail with
  | zero => omega
  | succ depth ih =>
      unfold interfaceWithin
      cases hunalias : s.unalias type with
      | named name =>
          dsimp only
          split
          · next hseen =>
              have hmem : name.full ∈ visited := by simpa using hseen
              exact advances_of_visited hreach hunalias (List.Subset.refl _) hmem
                fun full hfull hold => absurd hfull hold
          · next hseen =>
              have hold : name.full ∉ visited := by simpa using hseen
              cases hiface : s.interfaceOf? name with
              | none =>
                  refine advances_of_visited hreach hunalias (List.subset_cons_self _ _)
                    List.mem_cons_self ?_
                  intro full hfull hfresh
                  rcases List.mem_cons.mp hfull with heq | hmem
                  · exact ⟨heq, hiface⟩
                  · exact absurd hmem hfresh
              | some found =>
                  obtain ⟨methods, embedded⟩ := found
                  have hshows : s.Shows type methods embedded :=
                    shows_iff.mpr ((interfaceBehind?_of_named hunalias).trans hiface)
                  refine Advances.of_named hreach hunalias hiface
                    (advances_addEmbedded ?_ (ownMethods methods, name.full :: visited)
                      (List.Subset.refl _))
                  intro elem v helem hv
                  have hroom : s.room v [] elem < s.room visited trail type :=
                    room_named hiface helem hv hold
                  exact ih (hreach.tail ⟨methods, embedded, hshows, helem⟩) (s.followed_nil elem)
                    (Nat.lt_of_lt_of_le hroom (Nat.le_of_lt_succ hdepth))
      | interface methods embedded =>
          have hshows : s.Shows type methods embedded :=
            shows_iff.mpr (interfaceBehind?_of_written hunalias)
          refine Advances.of_written hunalias
            (advances_addEmbedded ?_ (ownMethods methods, visited) (List.Subset.refl _))
          intro elem v helem hv
          obtain ⟨trail', htrail', hroom⟩ := room_written hunlooped htrail hunalias helem hv
          exact ih (hreach.tail ⟨methods, embedded, hshows, helem⟩) htrail'
            (Nat.lt_of_lt_of_le hroom (Nat.le_of_lt_succ hdepth))
      | _ =>
          refine ⟨List.Subset.refl _, fun _ h => h, fun _ _ h => Or.inl h, ?_, ?_⟩
          · intro first hfirst
            rw [List.mem_singleton.mp hfirst]
            apply Covered.bare
            unfold interfaceBehind?
            rw [hunalias]
          · exact fun full hnew hold => absurd hnew hold

/-!
# What a search finds
-/

/-- Behind a type that was gone through, the methods of the interface were found and what it
embeds was gone through. -/
theorem Covered.behind {type other : GoType} {methods : List (InterfaceMethod GoType)}
    {embedded : List GoType} (hlegible : s.Legible type)
    (h : Advances s type [type] Table.empty found [] visited) (hreach : s.Reaches type other)
    (hcovered : Covered s found visited other) (hshows : s.Shows other methods embedded) :
    (forall m, m ∈ methods -> found.contains m.name = true) ∧
      forall elem, elem ∈ embedded -> Covered s found visited elem := by
  rw [shows_iff] at hshows
  cases hcovered with
  | @named _ name hunalias hvisited =>
      -- The name that was visited may be another one that is written alike.
      obtain ⟨twin, name', hfull, htwin, hunalias', hexpanded⟩ :=
        h.expanded name.full hvisited List.not_mem_nil
      have hsame := hlegible other twin name name' hreach htwin hunalias hunalias' hfull.symm
      rw [interfaceBehind?_of_named hunalias] at hshows
      refine hexpanded methods embedded ?_
      unfold interfaceOf? at hshows ⊢
      rw [← hsame]
      exact hshows
  | @written _ ms es hunalias hmethods hembedded =>
      rw [interfaceBehind?_of_written hunalias] at hshows
      cases hshows
      exact ⟨hmethods, hembedded⟩
  | bare hnone => cases hnone.symm.trans hshows

/-- A search goes through everything that the type reaches. -/
theorem covered_of_reaches {type other : GoType} (hlegible : s.Legible type)
    (h : Advances s type [type] Table.empty found [] visited) (hreach : s.Reaches type other) :
    Covered s found visited other := by
  induction hreach with
  | refl => exact h.covered type (List.mem_singleton_self type)
  | tail hreach hembeds ih =>
      obtain ⟨methods, embedded, hshows, helem⟩ := hembeds
      exact (ih.behind hlegible h hreach hshows).2 _ helem

theorem isSome_interfaceWithin {type : GoType} (h : (s.interfaceBehind? type).isSome = true)
    (depth : Nat) (visited : Visited) :
    exists found, (s.interfaceWithin (depth + 1) type visited).1 = some found := by
  unfold interfaceBehind? at h
  unfold interfaceWithin
  cases hunalias : s.unalias type with
  | named name =>
      rw [hunalias] at h
      dsimp only at h ⊢
      split
      · exact ⟨Table.empty, rfl⟩
      · obtain ⟨⟨methods, embedded⟩, hiface⟩ := Option.isSome_iff_exists.mp h
        rw [hiface]
        exact ⟨_, rfl⟩
  | interface methods embedded => exact ⟨_, rfl⟩
  | _ =>
      rw [hunalias] at h
      cases h

theorem interfaceWithin_of_bare {type : GoType} (h : s.interfaceBehind? type = none)
    (depth : Nat) (visited : Visited) :
    (s.interfaceWithin depth type visited).1 = none ∨
      (s.interfaceWithin depth type visited).1 = some Table.empty ∧ visited ≠ [] := by
  cases depth with
  | zero => exact Or.inl rfl
  | succ depth =>
      unfold interfaceWithin
      cases hunalias : s.unalias type with
      | named name =>
          rw [interfaceBehind?_of_named hunalias] at h
          dsimp only
          rw [h]
          split
          · next hseen =>
              have hmem : name.full ∈ visited := by simpa using hseen
              exact Or.inr ⟨rfl, List.ne_nil_of_mem hmem⟩
          · exact Or.inl rfl
      | interface methods embedded =>
          rw [interfaceBehind?_of_written hunalias] at h
          cases h
      | _ => exact Or.inl rfl

theorem interfaceMethods_of_bare {type : GoType} (h : s.interfaceBehind? type = none) :
    s.interfaceMethods? type = none := by
  rcases interfaceWithin_of_bare h (s.interfaceBound type) [] with hnone | ⟨_, hne⟩
  · exact hnone
  · exact absurd rfl hne

theorem interfaceMethods_of_reaches (hunlooped : s.Unlooped) {type : GoType}
    (hlegible : s.Legible type) {methods : List (InterfaceMethod GoType)}
    {embedded : List GoType} (hshows : s.Shows type methods embedded) :
    exists found, s.interfaceMethods? type = some found ∧
      (forall method, found.contains method = true ↔
        exists other signature, s.Reaches type other ∧ s.Declares other method signature) ∧
      forall method signature, found.get? method = some signature ->
        exists other, s.Reaches type other ∧ s.Declares other method signature := by
  have hbound := s.room_lt_interfaceBound type
  have hadvances := advances_interfaceWithin hunlooped Relation.ReflTransGen.refl
    (s.followed_nil type) hbound
  obtain ⟨depth, hdepth⟩ : exists depth, s.interfaceBound type = depth + 1 :=
    ⟨s.interfaceBound type - 1, by omega⟩
  have hbehind : (s.interfaceBehind? type).isSome = true := by
    rw [shows_iff.mp hshows]
    rfl
  obtain ⟨found, hfound⟩ := isSome_interfaceWithin hbehind depth []
  rw [← hdepth] at hfound
  rw [hfound] at hadvances
  have hsignature : forall method signature, found.get? method = some signature ->
      exists other, s.Reaches type other ∧ s.Declares other method signature := by
    intro method signature hget
    rcases hadvances.found method signature hget with hempty | ⟨first, other, hfirst, hother⟩
    · cases hempty
    · rw [List.mem_singleton.mp hfirst] at hother
      exact ⟨other, hother⟩
  refine ⟨found, hfound, ?_, hsignature⟩
  intro method
  constructor
  · intro hcontains
    obtain ⟨signature, hget⟩ := Table.contains_iff.mp hcontains
    obtain ⟨other, hother⟩ := hsignature method signature hget
    exact ⟨other, signature, hother⟩
  · rintro ⟨other, signature, hreach, ms, es, hother, hmem⟩
    exact ((covered_of_reaches hlegible hadvances hreach).behind hlegible hadvances hreach
      hother).1 _ hmem

end Session
end GoAtlas
