import GoAtlas.Proofs.Session.Embedding

/-!
# Embedded types in another order

Two sessions may know the same interfaces with what they embed in another order.  Types reach the
same interfaces in both, and an alias is defined through itself in both or in neither.
-/

namespace GoAtlas

/-!
# Interfaces in another order
-/

/-- The second type is the first one with embedded types of interfaces in another order. -/
inductive GoType.Shuffled : GoType -> GoType -> Prop where
  | same (type : GoType) : Shuffled type type
  | swap (methods : List (InterfaceMethod GoType)) (front : List GoType) (x y : GoType)
      (back : List GoType) :
      Shuffled (interface methods (front ++ x :: y :: back))
        (interface methods (front ++ y :: x :: back))
  | inside (methods : List (InterfaceMethod GoType)) (front : List GoType) {x y : GoType}
      (back : List GoType) (h : Shuffled x y) :
      Shuffled (interface methods (front ++ x :: back)) (interface methods (front ++ y :: back))
  | trans {type next other : GoType} (h : Shuffled type next) (h' : Shuffled next other) :
      Shuffled type other

namespace GoType.Shuffled

theorem symm {type other : GoType} (h : type.Shuffled other) : other.Shuffled type := by
  induction h with
  | same type => exact same type
  | swap methods front x y back => exact swap methods front y x back
  | inside methods front back _ ih => exact inside methods front back ih
  | trans _ _ ih ih' => exact trans ih' ih

/-- Types in another order are the same, or interfaces with the same methods and corresponding
embedded types. -/
theorem cases {type other : GoType} (h : type.Shuffled other) :
    type = other ∨ exists methods embedded embedded', type = .interface methods embedded ∧
      other = .interface methods embedded' ∧
      forall elem', elem' ∈ embedded' -> exists elem, elem ∈ embedded ∧ elem.Shuffled elem' := by
  induction h with
  | same type => exact Or.inl rfl
  | swap methods front x y back =>
      refine Or.inr ⟨methods, _, _, rfl, rfl, fun elem helem => ⟨elem, ?_, same elem⟩⟩
      exact ((List.Perm.swap x y back).append_left front).mem_iff.mp helem
  | @inside methods front x y back h _ =>
      refine Or.inr ⟨methods, _, _, rfl, rfl, fun elem helem => ?_⟩
      rcases List.mem_append.mp helem with hfront | hrest
      · exact ⟨elem, List.mem_append_left _ hfront, same elem⟩
      · rcases List.mem_cons.mp hrest with rfl | hback
        · exact ⟨x, List.mem_append_right _ List.mem_cons_self, h⟩
        · exact ⟨elem, List.mem_append_right _ (List.mem_cons_of_mem _ hback), same elem⟩
  | trans _ _ ih ih' =>
      rcases ih with rfl | ⟨methods, embedded, between, rfl, rfl, hfirst⟩
      · exact ih'
      · rcases ih' with rfl | ⟨ms, es, embedded', heq, rfl, hsecond⟩
        · exact Or.inr ⟨methods, embedded, between, rfl, rfl, hfirst⟩
        · cases heq
          refine Or.inr ⟨methods, embedded, embedded', rfl, rfl, fun elem' helem' => ?_⟩
          obtain ⟨mid, hmid, hright⟩ := hsecond elem' helem'
          obtain ⟨elem, helem, hleft⟩ := hfirst mid hmid
          exact ⟨elem, helem, trans hleft hright⟩

theorem of_named {type : GoType} {name : TypeName} (h : type.Shuffled (.named name)) :
    type = .named name := by
  rcases h.cases with heq | ⟨_, _, _, _, heq, _⟩
  · exact heq
  · cases heq

theorem of_interface {type : GoType} {methods : List (InterfaceMethod GoType)}
    {embedded' : List GoType} (h : type.Shuffled (.interface methods embedded')) :
    exists embedded, type = .interface methods embedded ∧
      forall elem', elem' ∈ embedded' -> exists elem, elem ∈ embedded ∧ elem.Shuffled elem' := by
  rcases h.cases with heq | ⟨ms, embedded, es, htype, heq, helems⟩
  · exact ⟨embedded', heq, fun elem' helem' => ⟨elem', helem', same elem'⟩⟩
  · cases heq
    exact ⟨embedded, htype, helems⟩

end GoType.Shuffled

namespace Session

/-- The sessions have the same definitions, with embedded types of interfaces in another
order. -/
def Shuffled (s t : Session) : Prop :=
  forall name, Option.Rel (fun d e => d.isAlias = e.isAlias ∧ d.underlying.Shuffled e.underlying)
    (s.typeDef? name) (t.typeDef? name)

variable {s t : Session}

theorem Shuffled.symm (h : s.Shuffled t) : t.Shuffled s := by
  intro name
  have hname := h name
  generalize s.typeDef? name = old at hname ⊢
  generalize t.typeDef? name = new at hname ⊢
  cases hname with
  | none => exact Option.Rel.none
  | some hrel => exact Option.Rel.some ⟨hrel.1.symm, hrel.2.symm⟩

theorem Shuffled.definition (h : s.Shuffled t) {name : TypeName} {e : TypeDef}
    (he : t.typeDef? name = some e) :
    exists d, s.typeDef? name = some d ∧ d.isAlias = e.isAlias ∧
      d.underlying.Shuffled e.underlying := by
  have hname := h name
  rw [he] at hname
  generalize hd : s.typeDef? name = found at hname
  cases hname with
  | some hrel => exact ⟨_, rfl, hrel⟩

/-!
# Ways in both sessions

Each step from a type in one session is a step from the type in another order in the other one.
-/

theorem Shuffled.renames (h : s.Shuffled t) {type type' target' : GoType}
    (htype : type.Shuffled type') (hrenames : t.Renames type' target') :
    exists target, s.Renames type target ∧ target.Shuffled target' := by
  obtain ⟨name, e, rfl, he, halias, rfl⟩ := hrenames
  obtain ⟨d, hd, hsame, hunderlying⟩ := h.definition he
  exact ⟨d.underlying, ⟨name, d, htype.of_named, hd, hsame.trans halias, rfl⟩, hunderlying⟩

theorem Shuffled.aliasPath (h : s.Shuffled t) {steps : Nat} {type type' target' : GoType}
    (htype : type.Shuffled type') (hpath : t.AliasPath steps type' target') :
    exists target, s.AliasPath steps type target ∧ target.Shuffled target' := by
  induction hpath generalizing type with
  | here type' => exact ⟨type, AliasPath.here type, htype⟩
  | step hstep _ ih =>
      obtain ⟨next, hnext, hshuffled⟩ := h.renames htype hstep
      obtain ⟨target, htarget, hfinal⟩ := ih hshuffled
      exact ⟨target, AliasPath.step hnext htarget, hfinal⟩

theorem Shuffled.shows (h : s.Shuffled t) {type type' : GoType} (htype : type.Shuffled type')
    {methods : List (InterfaceMethod GoType)} {embedded' : List GoType}
    (hshows : t.Shows type' methods embedded') :
    exists embedded, s.Shows type methods embedded ∧
      forall elem', elem' ∈ embedded' -> exists elem, elem ∈ embedded ∧ elem.Shuffled elem' := by
  obtain ⟨steps, target', hsteps, hpath, htarget'⟩ := hshows
  obtain ⟨target, hway, htarget⟩ := h.aliasPath htype hpath
  rcases htarget' with rfl | ⟨name, rfl, hname⟩
  · obtain ⟨embedded, rfl, helems⟩ := htarget.of_interface
    exact ⟨embedded, ⟨steps, _, hsteps, hway, Or.inl rfl⟩, helems⟩
  · obtain ⟨e, he, hunderlying⟩ := interfaceOf?_eq_some_iff.mp hname
    obtain ⟨d, hd, _, hshuffled⟩ := h.definition he
    rw [hunderlying] at hshuffled
    obtain ⟨embedded, hinterface, helems⟩ := hshuffled.of_interface
    rw [htarget.of_named] at hway
    refine ⟨embedded, ⟨steps, _, hsteps, hway, Or.inr ⟨name, rfl, ?_⟩⟩, helems⟩
    exact interfaceOf?_eq_some_iff.mpr ⟨d, hd, hinterface⟩

theorem Shuffled.reaches (h : s.Shuffled t) {type type' other' : GoType}
    (htype : type.Shuffled type') (hreach : t.Reaches type' other') :
    exists other, s.Reaches type other ∧ other.Shuffled other' := by
  induction hreach with
  | refl => exact ⟨type, Relation.ReflTransGen.refl, htype⟩
  | tail _ hembeds ih =>
      obtain ⟨other, hother, hshuffled⟩ := ih
      obtain ⟨methods, embedded', hshows, helem'⟩ := hembeds
      obtain ⟨embedded, hshows, helems⟩ := h.shows hshuffled hshows
      obtain ⟨elem, helem, hfinal⟩ := helems _ helem'
      exact ⟨elem, hother.tail ⟨methods, embedded, hshows, helem⟩, hfinal⟩

theorem Shuffled.declares (h : s.Shuffled t) {type type' : GoType} (htype : type.Shuffled type')
    {method : String} {signature : Signature GoType}
    (hdeclares : exists other, t.Reaches type' other ∧ t.Declares other method signature) :
    exists other, s.Reaches type other ∧ s.Declares other method signature := by
  obtain ⟨other', hreach, methods, embedded', hshows, hmem⟩ := hdeclares
  obtain ⟨other, hother, hshuffled⟩ := h.reaches htype hreach
  obtain ⟨embedded, hshows, _⟩ := h.shows hshuffled hshows
  exact ⟨other, hother, methods, embedded, hshows, hmem⟩

theorem Shuffled.exposes (h : s.Shuffled t) {type type' target' : GoType}
    (htype : type.Shuffled type') (hexposes : t.Exposes type' target') :
    exists target, s.Exposes type target ∧ target.Shuffled target' := by
  cases hexposes with
  | renamed hrenames =>
      obtain ⟨target, htarget, hshuffled⟩ := h.renames htype hrenames
      exact ⟨target, Exposes.renamed htarget, hshuffled⟩
  | written helem' =>
      obtain ⟨embedded, rfl, helems⟩ := htype.of_interface
      obtain ⟨elem, helem, hshuffled⟩ := helems _ helem'
      exact ⟨elem, Exposes.written helem, hshuffled⟩

theorem Shuffled.unlooped (h : s.Shuffled t) (hs : s.Unlooped) : t.Unlooped := by
  have hway : forall {type target' : GoType}, Relation.TransGen t.Exposes type target' ->
      exists target, Relation.TransGen s.Exposes type target ∧ target.Shuffled target' := by
    intro type target' hpath
    induction hpath with
    | single hstep =>
        obtain ⟨target, htarget, hshuffled⟩ := h.exposes (GoType.Shuffled.same type) hstep
        exact ⟨target, Relation.TransGen.single htarget, hshuffled⟩
    | tail _ hstep ih =>
        obtain ⟨mid, hmid, hmiddle⟩ := ih
        obtain ⟨target, htarget, hshuffled⟩ := h.exposes hmiddle hstep
        exact ⟨target, hmid.tail htarget, hshuffled⟩
  intro name e he halias hloop
  obtain ⟨d, hd, hsame, _⟩ := h.definition he
  obtain ⟨target, htarget, hshuffled⟩ := hway hloop
  rw [hshuffled.of_named] at htarget
  exact hs name d hd (hsame.trans halias) htarget

end Session
end GoAtlas
