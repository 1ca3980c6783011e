import GoAtlas.Proofs.Check.Expressions

/-!
# Links between declarations

A declaration that needs itself is met again while it is pending.  Pending declarations are
distinct, so their number is bounded, and links never run out: whoever follows them comes by a
fine type or a hard complaint.
-/

namespace GoAtlas
namespace Scope

def allPending (sc : Scope) : List Pending :=
  sc.types.keys.map Pending.alias ++ sc.types.keys.map Pending.type ++
    (List.range sc.consts.length).map Pending.const

theorem length_allPending (sc : Scope) :
    sc.allPending.length = 2 * sc.types.size + sc.consts.length := by
  simp [allPending, Table.keys, Table.size]
  omega

variable {sc : Scope} {importer : Session.LocalImporter} {w : Place Progress}

theorem alias_mem_allPending {name : String} {d : TypeDecl} (h : sc.types.get? name = some d) :
    Pending.alias name ∈ sc.allPending := by
  have hkey : name ∈ sc.types.keys := Table.mem_keys_iff.mpr ⟨d, h⟩
  exact List.mem_append_left _ (List.mem_append_left _ (List.mem_map_of_mem hkey))

theorem type_mem_allPending {name : String} {d : TypeDecl} (h : sc.types.get? name = some d) :
    Pending.type name ∈ sc.allPending := by
  have hkey : name ∈ sc.types.keys := Table.mem_keys_iff.mpr ⟨d, h⟩
  exact List.mem_append_left _ (List.mem_append_right _ (List.mem_map_of_mem hkey))

theorem const_mem_allPending {i : Nat} {d : ConstDecl} (h : sc.consts[i]? = some d) :
    Pending.const i ∈ sc.allPending := by
  have hlength : i < sc.consts.length := (List.getElem?_eq_some_iff.mp h).1
  exact List.mem_append_right _ (List.mem_map_of_mem (List.mem_range.mpr hlength))

structure Ample (sc : Scope) (fuel : Nat) (pending : List Pending) : Prop where
  nodup : pending.Nodup
  mem : forall k, k ∈ pending -> k ∈ sc.allPending
  enough : sc.allPending.length < fuel + pending.length

namespace Ample

variable {fuel : Nat} {pending : List Pending}

theorem links (sc : Scope) : sc.Ample sc.linkDepth [] where
  nodup := List.nodup_nil
  mem := List.forall_mem_nil _
  enough := by
    rw [length_allPending]
    exact Nat.lt_succ_self _

/-- Pending declarations are distinct, so there are no more of them than declarations. -/
theorem exists_succ (h : sc.Ample fuel pending) : exists less, fuel = less + 1 := by
  have hle := h.nodup.length_le_of_subset h.mem
  have henough := h.enough
  exact Nat.exists_eq_add_one_of_ne_zero (by omega)

theorem not_zero (h : sc.Ample 0 pending) : False := by
  obtain ⟨_, hzero⟩ := h.exists_succ
  cases hzero

theorem enter (h : sc.Ample (fuel + 1) pending) {k : Pending} (hmem : k ∈ sc.allPending)
    (hk : k ∉ pending) : sc.Ample fuel (k :: pending) where
  nodup := List.nodup_cons.mpr ⟨hk, h.nodup⟩
  mem := List.forall_mem_cons.mpr ⟨hmem, h.mem⟩
  enough := by
    have henough := h.enough
    rw [List.length_cons]
    omega

end Ample

/-!
# Recording results
-/

theorem yields_recordAlias {name : String} {type : GoType} (htype : sc.Fine w type) :
    Yields (sc.course importer) (do
      modify fun p => { p with aliases := p.aliases.insert name type }
      return type) w fun type v => sc.Fine v type := by
  refine Yields.bind (P := fun _ v => sc.Fine v type)
    (Yields.modify ?_ ⟨Session.Grows.refl _, fun h => h⟩ htype) fun _ _ _ h => Yields.pure h
  intro h
  exact ⟨h.session, h.packages, h.bindings,
    Table.forall_get?_insert (P := fun _ type => sc.Fine w type) h.aliases htype,
    h.underlying, h.values⟩

theorem yields_recordUnderlying {name : String} {type : GoType} (htype : sc.Shaped w type) :
    Yields (sc.course importer) (do
      modify fun p => { p with underlying := p.underlying.insert name type }
      return type) w fun type v => sc.Shaped v type := by
  refine Yields.bind (P := fun _ v => sc.Shaped v type)
    (Yields.modify ?_ ⟨Session.Grows.refl _, fun h => h⟩ htype) fun _ _ _ h => Yields.pure h
  intro h
  exact ⟨h.session, h.packages, h.bindings, h.aliases,
    Table.forall_get?_insert (P := fun _ type => sc.Shaped w type) h.underlying htype, h.values⟩

theorem yields_recordValue {i : Nat} {value : Option Valued}
    (hvalue : forall x, value = some x -> sc.Fine w x.2) :
    Yields (sc.course importer) (do
      modify fun p => { p with values := p.values ++ [(i, value)] }
      return value) w fun value v => forall x, value = some x -> sc.Fine v x.2 := by
  refine Yields.bind (P := fun _ v => forall x, value = some x -> sc.Fine v x.2)
    (Yields.modify ?_ ⟨Session.Grows.refl _, fun h => h⟩ hvalue) fun _ _ _ h => Yields.pure h
  intro h
  refine ⟨h.session, h.packages, h.bindings, h.aliases, h.underlying, ?_⟩
  intro j x hx
  change (w.1.values ++ [(i, value)]).lookup j = some (some x) at hx
  rw [List.lookup_append] at hx
  rcases Option.or_eq_some_iff.mp hx with hold | ⟨_, hnew⟩
  · exact h.values j x hold
  · rw [List.lookup_cons] at hnew
    split at hnew
    · cases hnew
      exact hvalue x rfl
    · cases hnew

/-!
# Following one link
-/

section Following

variable {pending : List Pending} {deeper : Pending -> Links}

theorem yields_aliasType (himporter : Session.Answering importer)
    (hdeeper : forall p, p ∈ sc.allPending -> p ∉ pending -> sc.Follows importer (deeper p))
    {name : String} {d : TypeDecl} (hd : sc.types.get? name = some d) :
    Yields (sc.course importer) (sc.aliasType pending deeper name) w
      fun type v => sc.Fine v type := by
  unfold aliasType
  refine Yields.of_holds fun hw => Yields.get_bind ?_
  rw [hd]
  cases hknown : w.1.aliases.get? name with
  | some type => exact Yields.pure (hw.aliases name type hknown)
  | none =>
      dsimp only
      split
      · exact yields_fineInvalid _ _ _
      · next hnew =>
          have hlinks := hdeeper (.alias name) (alias_mem_allPending hd)
            fun hmem => hnew (List.contains_iff_mem.mpr hmem)
          apply (yields_resolveType himporter hlinks d.file d.spec.params d.spec.type w).bind
          intro type v _ htype
          exact yields_recordAlias htype

theorem yields_underlyingOf (himporter : Session.Answering importer)
    (hdeeper : forall p, p ∈ sc.allPending -> p ∉ pending -> sc.Follows importer (deeper p))
    {name : String} {d : TypeDecl} (hd : sc.types.get? name = some d) :
    Yields (sc.course importer) (sc.underlyingOf pending deeper name) w
      fun type v => sc.Shaped v type := by
  unfold underlyingOf
  refine Yields.of_holds fun hw => Yields.get_bind ?_
  rw [hd]
  cases hknown : w.1.underlying.get? name with
  | some type => exact Yields.pure (hw.underlying name type hknown)
  | none =>
      dsimp only
      split
      · exact yields_invalid _ _ _
      · next hnew =>
          have hlinks := hdeeper (.type name) (type_mem_allPending hd)
            fun hmem => hnew (List.contains_iff_mem.mpr hmem)
          apply (yields_resolveType himporter hlinks d.file d.spec.params d.spec.type w).bind
          intro type v _ htype
          apply (yields_underlying himporter hlinks htype).bind
          intro underlying u _ hunderlying
          exact yields_recordUnderlying hunderlying

theorem evaluates_declaredValue (himporter : Session.Answering importer) {links : Links}
    (hlinks : sc.Follows importer links) (d : ConstDecl) (expr : Source.Expr) :
    Evaluates (sc.course importer) (sc.declaredValue links d expr) w
      fun x v => sc.Fine v x.2 := by
  unfold declaredValue
  apply (evaluates_eval himporter hlinks d.file (some d.iota) expr w).bind
  intro value v _ hvalue
  split
  · exact Evaluates.pure hvalue
  · next type _ =>
      refine Evaluates.bind
        (Evaluates.lift (yields_resolveType himporter hlinks d.file [] type v)) ?_
      intro target u _ htarget
      exact evaluates_assign himporter hlinks value htarget

theorem yields_constValue (himporter : Session.Answering importer)
    (hdeeper : forall p, p ∈ sc.allPending -> p ∉ pending -> sc.Follows importer (deeper p))
    (i : Nat) :
    Yields (sc.course importer) (sc.constValue pending deeper i) w
      fun value v => forall x, value = some x -> sc.Fine v x.2 := by
  have hnone : forall (v : Place Progress) (x : Valued), none = some x -> sc.Fine v x.2 := by
    intro v x hx
    cases hx
  unfold constValue
  refine Yields.of_holds fun hw => Yields.get_bind ?_
  cases hknown : w.1.values.lookup i with
  | some value =>
      apply Yields.pure
      intro x hx
      exact hw.values i x (hx ▸ hknown)
  | none =>
      cases hd : sc.consts[i]? with
      | none => exact Yields.pure (hnone w)
      | some d =>
          dsimp only
          split
          · apply (yields_complain _ _ _).bind
            intro _ v _ _
            exact Yields.pure (hnone v)
          · next hnew =>
              have hlinks := hdeeper (.const i) (const_mem_allPending hd)
                fun hmem => hnew (List.contains_iff_mem.mpr hmem)
              split
              · rw [pure_bind]
                exact yields_recordValue (hnone w)
              · next expr _ =>
                  refine Yields.bind (evaluates_declaredValue himporter hlinks d expr) ?_
                  intro result v _ hresult
                  cases result with
                  | ok value =>
                      dsimp only
                      rw [pure_bind]
                      refine yields_recordValue ?_
                      intro x hx
                      cases hx
                      exact hresult value rfl
                  | error cause =>
                      apply (yields_complain _ _ _).bind
                      intro _ u _ _
                      rw [pure_bind]
                      exact yields_recordValue (hnone u)

end Following

/-!
# Links do not run out
-/

theorem follows_linksWithin (himporter : Session.Answering importer) {fuel : Nat}
    {pending : List Pending} (hample : sc.Ample fuel pending) :
    sc.Follows importer (sc.linksWithin fuel pending) := by
  induction fuel generalizing pending with
  | zero => exact hample.not_zero.elim
  | succ fuel ih =>
      have hdeeper : forall p, p ∈ sc.allPending -> p ∉ pending ->
          sc.Follows importer (sc.linksWithin fuel (p :: pending)) :=
        fun p hp hnew => ih (hample.enter hp hnew)
      exact
        { aliased := fun _ _ _ hd => yields_aliasType himporter hdeeper hd
          underlying := fun _ _ _ hd => yields_underlyingOf himporter hdeeper hd
          const := fun i _ => yields_constValue himporter hdeeper i }

theorem follows_links (himporter : Session.Answering importer) (sc : Scope) :
    sc.Follows importer sc.links :=
  follows_linksWithin himporter (Ample.links sc)

end Scope
end GoAtlas
