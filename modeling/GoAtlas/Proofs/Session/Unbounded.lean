import GoAtlas.Proofs.Session.Depths

/-!
# Searches without a bound

The searches for methods follow embedded types, through aliases and to and fro between interfaces
and structs.  Here they are told without any bound on how far they go: a search has a result if
its steps come to an end, and not otherwise.  They do come to an end, for every type, because
declared interfaces are taken apart once, depths of embedding need new names, and no alias is
defined through itself.  The bounded searches find what these find.
-/

namespace GoAtlas
namespace Session

/-!
# Interfaces
-/

mutual

/-- The search for the methods of an interface, with the names it came by before and after. -/
inductive Collects (s : Session) : GoType -> Visited -> Option MethodSet × Visited -> Prop
  | again {type : GoType} {name : TypeName} {visited : Visited}
      (hname : s.unalias type = .named name) (hseen : name.full ∈ visited) :
      Collects s type visited (some Table.empty, visited)
  | bare {type : GoType} {name : TypeName} {visited : Visited}
      (hname : s.unalias type = .named name) (hnew : name.full ∉ visited)
      (hnone : s.interfaceOf? name = none) :
      Collects s type visited (none, name.full :: visited)
  | declared {type : GoType} {name : TypeName} {visited visited' : Visited}
      {methods : List (InterfaceMethod GoType)} {embedded : List GoType} {found : MethodSet}
      (hname : s.unalias type = .named name) (hnew : name.full ∉ visited)
      (hiface : s.interfaceOf? name = some (methods, embedded))
      (hall : CollectsAll s embedded (ownMethods methods, name.full :: visited)
        (found, visited')) :
      Collects s type visited (some found, visited')
  | written {type : GoType} {visited visited' : Visited}
      {methods : List (InterfaceMethod GoType)} {embedded : List GoType} {found : MethodSet}
      (hwritten : s.unalias type = .interface methods embedded)
      (hall : CollectsAll s embedded (ownMethods methods, visited) (found, visited')) :
      Collects s type visited (some found, visited')
  | other {type : GoType} {visited : Visited} (hname : forall name, s.unalias type ≠ .named name)
      (hwritten : forall methods embedded, s.unalias type ≠ .interface methods embedded) :
      Collects s type visited (none, visited)

/-- The methods of embedded types are added one type after another. -/
inductive CollectsAll (s : Session) :
    List GoType -> MethodSet × Visited -> MethodSet × Visited -> Prop
  | done (acc : MethodSet × Visited) : CollectsAll s [] acc acc
  | next {type : GoType} {rest : List GoType} {methods : MethodSet} {visited visited' : Visited}
      {found : Option MethodSet} {result : MethodSet × Visited}
      (hfirst : Collects s type visited (found, visited'))
      (hrest : CollectsAll s rest (methods.addNew (found.getD Table.empty), visited') result) :
      CollectsAll s (type :: rest) (methods, visited) result

end

variable {s : Session}

mutual

theorem Collects.unique {type : GoType} {visited : Visited} {r r' : Option MethodSet × Visited} :
    s.Collects type visited r -> s.Collects type visited r' -> r = r'
  | .again hname hseen, h' => by
      cases h' with
      | again => rfl
      | bare hname' hnew | declared hname' hnew =>
          cases hname.symm.trans hname'
          exact absurd hseen hnew
      | written hwritten => cases hname.symm.trans hwritten
      | other hno => exact absurd hname (hno _)
  | .bare hname hnew hnone, h' => by
      cases h' with
      | again hname' hseen =>
          cases hname.symm.trans hname'
          exact absurd hseen hnew
      | bare hname' =>
          cases hname.symm.trans hname'
          rfl
      | declared hname' _ hiface =>
          cases hname.symm.trans hname'
          cases hnone.symm.trans hiface
      | written hwritten => cases hname.symm.trans hwritten
      | other hno => exact absurd hname (hno _)
  | .declared hname hnew hiface hall, h' => by
      -- The inner search is stated before the cases, which give up the recursion.
      have hsame : forall result, s.CollectsAll _ _ result -> _ = result := fun _ => hall.unique
      cases h' with
      | again hname' hseen =>
          cases hname.symm.trans hname'
          exact absurd hseen hnew
      | bare hname' _ hnone =>
          cases hname.symm.trans hname'
          cases hnone.symm.trans hiface
      | declared hname' _ hiface' hall' =>
          cases hname.symm.trans hname'
          cases hiface.symm.trans hiface'
          cases hsame _ hall'
          rfl
      | written hwritten => cases hname.symm.trans hwritten
      | other hno => exact absurd hname (hno _)
  | .written hwritten hall, h' => by
      have hsame : forall result, s.CollectsAll _ _ result -> _ = result := fun _ => hall.unique
      cases h' with
      | again hname | bare hname | declared hname => cases hname.symm.trans hwritten
      | written hwritten' hall' =>
          cases hwritten.symm.trans hwritten'
          cases hsame _ hall'
          rfl
      | other _ hno => exact absurd hwritten (hno _ _)
  | .other hname hwritten, h' => by
      cases h' with
      | again hname' | bare hname' | declared hname' => exact absurd hname' (hname _)
      | written hwritten' => exact absurd hwritten' (hwritten _ _)
      | other => rfl
termination_by structural h => h

theorem CollectsAll.unique {types : List GoType} {acc r r' : MethodSet × Visited} :
    s.CollectsAll types acc r -> s.CollectsAll types acc r' -> r = r'
  | .done _, h' => by
      cases h'
      rfl
  | .next hfirst hrest, h' => by
      have hsame : forall found, s.Collects _ _ found -> _ = found := fun _ => hfirst.unique
      have hsame' : forall result, s.CollectsAll _ _ result -> _ = result := fun _ => hrest.unique
      cases h' with
      | next hfirst' hrest' =>
          cases hsame _ hfirst'
          exact hsame' _ hrest'
termination_by structural h => h

end

mutual

theorem Collects.grows {type : GoType} {visited : Visited} {r : Option MethodSet × Visited} :
    s.Collects type visited r -> visited ⊆ r.2
  | .again _ _ => List.Subset.refl _
  | .bare _ _ _ => List.subset_cons_self _ _
  | .declared _ _ _ hall => fun _ hfull => hall.grows (List.mem_cons_of_mem _ hfull)
  | .written _ hall => hall.grows
  | .other _ _ => List.Subset.refl _
termination_by structural h => h

theorem CollectsAll.grows {types : List GoType} {acc r : MethodSet × Visited} :
    s.CollectsAll types acc r -> acc.2 ⊆ r.2
  | .done _ => List.Subset.refl _
  | .next hfirst hrest => List.Subset.trans hfirst.grows hrest.grows
termination_by structural h => h

end

theorem collectsAll_addEmbedded {inner : GoType -> Visited -> Option MethodSet × Visited}
    {embedded : List GoType} {visited : Visited}
    (h : forall elem v, elem ∈ embedded -> visited ⊆ v -> s.Collects elem v (inner elem v))
    (acc : MethodSet × Visited) (hacc : visited ⊆ acc.2) :
    s.CollectsAll embedded acc (addEmbedded inner embedded acc) := by
  induction embedded generalizing acc with
  | nil => exact .done acc
  | cons elem rest ih =>
      have hfirst := h elem acc.2 List.mem_cons_self hacc
      have hrest := ih (fun other v hother => h other v (List.mem_cons_of_mem _ hother))
        (acc.1.addNew ((inner elem acc.2).1.getD Table.empty), (inner elem acc.2).2)
        (List.Subset.trans hacc hfirst.grows)
      exact .next hfirst hrest

/-- A search with enough depth left is the search without a bound. -/
theorem collects_interfaceWithin (hunlooped : s.Unlooped) {depth : Nat} {type : GoType}
    {trail : List TypeDef} {visited : Visited} (htrail : s.Followed trail type)
    (hdepth : s.room visited trail type < depth) :
    s.Collects type visited (s.interfaceWithin depth type visited) := by
  induction depth generalizing type visited trail with
  | zero => omega
  | succ depth ih =>
      unfold interfaceWithin
      cases hunalias : s.unalias type with
      | named name =>
          dsimp only
          split
          · next hseen => exact .again hunalias (by simpa using hseen)
          · next hseen =>
              have hnew : name.full ∉ visited := by simpa using hseen
              cases hiface : s.interfaceOf? name with
              | none => exact .bare hunalias hnew hiface
              | some found =>
                  -- A new name leaves less room for the names to come.
                  obtain ⟨methods, embedded⟩ := found
                  refine .declared hunalias hnew hiface (collectsAll_addEmbedded ?_
                    (ownMethods methods, name.full :: visited) (List.Subset.refl _))
                  intro elem v helem hv
                  have hroom : s.room v [] elem < s.room visited trail type :=
                    room_named hiface helem hv hnew
                  exact ih (s.followed_nil elem)
                    (Nat.lt_of_lt_of_le hroom (Nat.le_of_lt_succ hdepth))
      | interface methods embedded =>
          -- No name is new here: an alias joins the trail, or there are fewer layers inside.
          refine .written hunalias (collectsAll_addEmbedded ?_ (ownMethods methods, visited)
            (List.Subset.refl _))
          intro elem v helem hv
          obtain ⟨trail', htrail', hroom⟩ := room_written hunlooped htrail hunalias helem hv
          exact ih htrail' (Nat.lt_of_lt_of_le hroom (Nat.le_of_lt_succ hdepth))
      | _ => exact .other (by simp [hunalias]) (by simp [hunalias])

def Lays (s : Session) (type : GoType) (found : Option MethodSet) : Prop :=
  exists visited, s.Collects type [] (found, visited)

theorem lays_iff (hunlooped : s.Unlooped) {type : GoType} {found : Option MethodSet} :
    s.Lays type found ↔ found = s.interfaceMethods? type := by
  have hends := collects_interfaceWithin hunlooped (s.followed_nil type)
    (s.room_lt_interfaceBound type)
  constructor
  · rintro ⟨visited, h⟩
    exact congrArg Prod.fst (h.unique hends)
  · rintro rfl
    exact ⟨_, hends⟩

/-!
# Promotion
-/

/-- The methods of one type and what it embeds; those of an interface are searched for. -/
inductive Unfolds (s : Session) (r : Reached) : MethodSet × List Reached -> Prop
  | interface {d : TypeDef} {methods : List (InterfaceMethod GoType)} {embedded : List GoType}
      {found : Option MethodSet} (hd : s.typeDef? r.name = some d) (halias : d.isAlias = false)
      (hiface : d.underlying = .interface methods embedded) (hlays : s.Lays (.named r.name) found) :
      Unfolds s r (found.getD Table.empty, [])
  | other (hother : forall d methods embedded, s.typeDef? r.name = some d -> d.isAlias = false ->
      d.underlying ≠ .interface methods embedded) : Unfolds s r (s.oneLevel r)

theorem unfolds_iff (hunlooped : s.Unlooped) {r : Reached} {result : MethodSet × List Reached} :
    s.Unfolds r result ↔ result = s.oneLevel r := by
  constructor
  · intro h
    cases h with
    | interface hd halias hiface hlays =>
        rw [(lays_iff hunlooped).mp hlays]
        unfold oneLevel
        rw [hd]
        dsimp only
        rw [halias, hiface]
        rfl
    | other => rfl
  · rintro rfl
    by_cases hother : forall d methods embedded, s.typeDef? r.name = some d ->
        d.isAlias = false -> d.underlying ≠ .interface methods embedded
    · exact .other hother
    · push Not at hother
      obtain ⟨d, methods, embedded, hd, halias, hiface⟩ := hother
      have hunfolds := Unfolds.interface hd halias hiface ((lays_iff hunlooped).mpr rfl)
      have hlevel : s.oneLevel r =
          ((s.interfaceMethods? (.named r.name)).getD Table.empty, []) := by
        unfold oneLevel
        rw [hd]
        dsimp only
        rw [halias, hiface]
        rfl
      rw [hlevel]
      exact hunfolds

/-- The types of one depth, one after another: their methods, what they embed and all names that
were seen. -/
inductive UnfoldsAll (s : Session) :
    List Reached -> Visited -> MethodSet × List Reached × Visited -> Prop
  | done (seen : Visited) : UnfoldsAll s [] seen (Table.empty, [], seen)
  | again {r : Reached} {rest : List Reached} {seen : Visited}
      {result : MethodSet × List Reached × Visited} (hseen : r.name.full ∈ seen)
      (hrest : UnfoldsAll s rest seen result) : UnfoldsAll s (r :: rest) seen result
  | next {r : Reached} {rest inner deeper : List Reached} {seen seen' : Visited}
      {methods more : MethodSet} (hnew : r.name.full ∉ seen) (hfirst : s.Unfolds r (methods, inner))
      (hrest : UnfoldsAll s rest (r.name.full :: seen) (more, deeper, seen')) :
      UnfoldsAll s (r :: rest) seen (methods.addNew more, inner ++ deeper, seen')

theorem unfoldsAll_iff (hunlooped : s.Unlooped) {here : List Reached} {seen : Visited}
    {result : MethodSet × List Reached × Visited} :
    s.UnfoldsAll here seen result ↔ result = s.wholeLevel here seen := by
  constructor
  · intro h
    induction h with
    | done => rfl
    | again hseen _ ih =>
        rw [ih, wholeLevel, if_pos (by simpa using hseen)]
    | next hnew hfirst _ ih =>
        rw [wholeLevel, if_neg (by simpa using hnew), ← (unfolds_iff hunlooped).mp hfirst, ← ih]
  · rintro rfl
    induction here generalizing seen with
    | nil => exact .done seen
    | cons r rest ih =>
        unfold wholeLevel
        split
        · next hseen => exact .again (by simpa using hseen) ih
        · next hnew => exact .next (by simpa using hnew) ((unfolds_iff hunlooped).mpr rfl) ih

/-- Depth after depth is gone through as long as there is one. -/
inductive Descends (s : Session) : List Reached -> Visited -> MethodSet -> Prop
  | done (seen : Visited) : Descends s [] seen Table.empty
  | level {here deeper : List Reached} {seen seen' : Visited} {methods more : MethodSet}
      (hne : here ≠ []) (hlevel : s.UnfoldsAll here seen (methods, deeper, seen'))
      (hrest : Descends s deeper seen' more) : Descends s here seen (methods.addNew more)

theorem Descends.unique (hunlooped : s.Unlooped) {here : List Reached} {seen : Visited}
    {methods methods' : MethodSet} (h : s.Descends here seen methods)
    (h' : s.Descends here seen methods') : methods = methods' := by
  induction h generalizing methods' with
  | done =>
      cases h' with
      | done => rfl
      | level hne => exact absurd rfl hne
  | level hne hlevel _ ih =>
      cases h' with
      | done => exact absurd rfl hne
      | level _ hlevel' hrest' =>
          rw [unfoldsAll_iff hunlooped] at hlevel hlevel'
          cases hlevel.trans hlevel'.symm
          rw [ih hrest']

theorem unvisited_wholeLevel_lt {here : List Reached} {seen : Visited}
    (h : (s.wholeLevel here seen).2.1 ≠ []) :
    unvisited s.definedNames.toFinset (s.wholeLevel here seen).2.2 <
      unvisited s.definedNames.toFinset seen := by
  obtain ⟨p, hp⟩ := List.exists_mem_of_ne_nil _ h
  rw [deeper_wholeLevel] at hp
  obtain ⟨q, hq, hp⟩ := List.mem_flatMap.mp hp
  obtain ⟨hmem, hunseen⟩ := mem_of_mem_newcomers hq
  refine unvisited_lt ?_ (List.mem_toFinset.mpr
    (mem_definedNames_of_oneLevel (List.ne_nil_of_mem hp))) hunseen ?_
  · exact fun full hfull => (s.mem_seen_wholeLevel here seen).mpr (Or.inl hfull)
  · exact (s.mem_seen_wholeLevel here seen).mpr (Or.inr ⟨q, hmem, rfl⟩)

/-- With more levels than names that are left, the bound is not come to. -/
theorem descends_promotedWithin (hunlooped : s.Unlooped) {levels : Nat} {here : List Reached}
    {seen : Visited} (hlevels : unvisited s.definedNames.toFinset seen < levels) :
    s.Descends here seen (s.promotedWithin levels here seen) := by
  induction levels generalizing here seen with
  | zero => omega
  | succ levels ih =>
      unfold promotedWithin
      split
      · next hempty =>
          rw [List.isEmpty_iff.mp hempty]
          exact .done seen
      · next hne =>
          refine .level (by simpa using hne) ((unfoldsAll_iff hunlooped).mpr rfl) ?_
          by_cases hdeeper : (s.wholeLevel here seen).2.1 = []
          · rw [hdeeper, promotedWithin_nil]
            exact .done _
          · exact ih (Nat.lt_of_lt_of_le (unvisited_wholeLevel_lt hdeeper)
              (Nat.le_of_lt_succ hlevels))

theorem descends_iff (hunlooped : s.Unlooped) {start : List Reached} {methods : MethodSet} :
    s.Descends start [] methods ↔ methods = s.promotedMethods start := by
  have hends : s.Descends start [] (s.promotedMethods start) :=
    descends_promotedWithin hunlooped s.unvisited_lt_levels
  constructor
  · exact fun h => h.unique hunlooped hends
  · rintro rfl
    exact hends

/-!
# Method sets
-/

/-- Where the methods of a type come from: a search for those of an interface, the promotion from
some types on, or nowhere. -/
inductive Supply where
  | interface (type : GoType)
  | promotion (start : List Reached)
  | nothing

def supplyOf (s : Session) (name : TypeName) (viaPointer : Bool) (ofInterface : Supply) : Supply :=
  match s.typeDef? name with
  | some d => if d.isInterface then ofInterface else .promotion [⟨name, viaPointer⟩]
  | none => .nothing

def supply (s : Session) (type : GoType) : Supply :=
  match s.unalias type with
  | .interface methods embedded => .interface (.interface methods embedded)
  | .named name => s.supplyOf name false (.interface (.named name))
  | .pointer elem =>
      match s.unalias elem with
      | .named name => s.supplyOf name true .nothing
      | _ => .nothing
  | .struct fields => .promotion (embeddedTypes false fields)
  | _ => .nothing

def supplied (s : Session) : Supply -> MethodSet
  | .interface type => (s.interfaceMethods? type).getD Table.empty
  | .promotion start => s.promotedMethods start
  | .nothing => Table.empty

theorem supplied_supplyOf (name : TypeName) (viaPointer : Bool) (ofInterface : Supply) :
    s.supplied (s.supplyOf name viaPointer ofInterface) =
      match s.typeDef? name with
      | some d =>
          if d.isInterface then s.supplied ofInterface else s.promotedMethods [⟨name, viaPointer⟩]
      | none => Table.empty := by
  unfold supplyOf
  cases s.typeDef? name with
  | none => rfl
  | some d =>
      dsimp only
      split
      · rfl
      · rfl

theorem supplied_supply (s : Session) (type : GoType) :
    s.supplied (s.supply type) = s.methodSet type := by
  unfold supply methodSet
  cases s.unalias type with
  | named name =>
      dsimp only
      rw [supplied_supplyOf]
      unfold namedMethods
      cases s.typeDef? name with
      | none => rfl
      | some d => rfl
  | pointer elem =>
      dsimp only
      unfold pointerMethods
      cases s.unalias elem with
      | named name => exact supplied_supplyOf name true .nothing
      | _ => rfl
  | _ => rfl

inductive Gathers (s : Session) (type : GoType) : MethodSet -> Prop
  | interface {target : GoType} {found : Option MethodSet}
      (hsupply : s.supply type = .interface target) (hlays : s.Lays target found) :
      Gathers s type (found.getD Table.empty)
  | promotion {start : List Reached} {methods : MethodSet}
      (hsupply : s.supply type = .promotion start) (hdescends : s.Descends start [] methods) :
      Gathers s type methods
  | nothing (hsupply : s.supply type = .nothing) : Gathers s type Table.empty

theorem gathers_iff (hunlooped : s.Unlooped) {type : GoType} {methods : MethodSet} :
    s.Gathers type methods ↔ methods = s.methodSet type := by
  rw [← s.supplied_supply type]
  constructor
  · intro h
    cases h with
    | interface hsupply hlays => rw [hsupply, (lays_iff hunlooped).mp hlays, supplied]
    | promotion hsupply hdescends => rw [hsupply, (descends_iff hunlooped).mp hdescends, supplied]
    | nothing hsupply => rw [hsupply, supplied]
  · rintro rfl
    cases hsupply : s.supply type with
    | interface target => exact .interface hsupply ((lays_iff hunlooped).mpr rfl)
    | promotion start => exact .promotion hsupply ((descends_iff hunlooped).mpr rfl)
    | nothing => exact .nothing hsupply

end Session
end GoAtlas
