import GoAtlas.Proofs.Index
import Mathlib.Data.List.Flatten

/-!
# Runs of merges

A call of `merge` on an index that is kept in place looks over its whole batch before it writes
the first definition.  Whatever calls are made on an empty index, it then holds the definitions
of the batches that were accepted and nothing else, so it does not depend on their order.
-/

namespace GoAtlas

namespace Index

/-!
# Calls
-/

/-- The arguments of a call: a package and the definitions that are meant for it. -/
structure Batch where
  path : String
  defs : List TypeDef

def write (d : TypeDef) : ExceptT Error (StateM Index) Unit :=
  modify fun i => ⟨i.table.insert d.name.full d⟩

/-- The call on an index in place: a fault is reported before anything is written, then the
definitions are written one after another. -/
def mergeInPlace (b : Batch) : ExceptT Error (StateM Index) Unit := do
  match firstFault? (← get) b.path [] b.defs with
  | some e => throw e
  | none => b.defs.forM write

def call (i : Index) (b : Batch) : Except Error Unit × Index :=
  (mergeInPlace b).run i

def after (i : Index) : List Batch -> Index
  | [] => i
  | b :: rest => after (call i b).2 rest

def succeeded (i : Index) : List Batch -> List Batch
  | [] => []
  | b :: rest =>
      match (call i b).1 with
      | .ok _ => b :: succeeded (call i b).2 rest
      | .error _ => succeeded (call i b).2 rest

theorem run_forM_write (defs : List TypeDef) (i : Index) :
    (defs.forM write).run i = (Except.ok (), i.insertAll defs) := by
  induction defs generalizing i with
  | nil => rfl
  | cons d rest ih => exact ih ⟨i.table.insert d.name.full d⟩

theorem call_eq_merge (i : Index) (b : Batch) :
    call i b =
      match i.merge b.path b.defs with
      | .ok j => (.ok (), j)
      | .error e => (.error e, i) := by
  have hcall : call i b =
      (match firstFault? i b.path [] b.defs with
        | some e => throw e
        | none => b.defs.forM write : ExceptT Error (StateM Index) Unit).run i := rfl
  rw [hcall]
  unfold merge
  cases firstFault? i b.path [] b.defs with
  | some e => rfl
  | none => exact run_forM_write b.defs i

/-- A call succeeds and writes the whole batch, or it breaks an invariant and writes nothing. -/
theorem call_cases (i : Index) (b : Batch) :
    (i.Accepts b.path b.defs ∧ i.merge b.path b.defs = .ok (i.insertAll b.defs) ∧
        call i b = (.ok (), i.insertAll b.defs)) ∨
      (¬ i.Accepts b.path b.defs ∧ exists e, e.isInvariant = true ∧
        i.merge b.path b.defs = .error e ∧ call i b = (.error e, i)) := by
  cases hmerge : i.merge b.path b.defs with
  | ok j =>
      obtain ⟨haccepts, rfl⟩ := merge_eq_ok_iff.mp hmerge
      exact Or.inl ⟨haccepts, rfl, by rw [call_eq_merge, hmerge]⟩
  | error e =>
      refine Or.inr ⟨fun haccepts => ?_, e, isInvariant_of_merge hmerge, rfl,
        by rw [call_eq_merge, hmerge]⟩
      rw [merge_eq_ok_iff.mpr ⟨haccepts, rfl⟩] at hmerge
      cases hmerge

/-!
# Batches that go together
-/

def defsOf (batches : List Batch) : List TypeDef :=
  batches.flatMap (·.defs)

/-- Batches that can be merged one after another: every definition is in the batch of its
package, and no name is there twice. -/
structure Compatible (batches : List Batch) : Prop where
  owned : forall b, b ∈ batches -> forall d, d ∈ b.defs -> d.name.packagePath = b.path
  distinct : ((defsOf batches).map fun d => d.name.full).Nodup

@[simp] theorem defsOf_append (merged new : List Batch) :
    defsOf (merged ++ new) = defsOf merged ++ defsOf new :=
  List.flatMap_append

@[simp] theorem defsOf_singleton (b : Batch) : defsOf [b] = b.defs :=
  List.flatMap_singleton _ b

theorem mem_defsOf {batches : List Batch} {d : TypeDef} :
    d ∈ defsOf batches ↔ exists b, b ∈ batches ∧ d ∈ b.defs :=
  List.mem_flatMap

theorem Compatible.sublist {few batches : List Batch} (h : Compatible batches)
    (hfew : few.Sublist batches) : Compatible few where
  owned b hb := h.owned b (hfew.subset hb)
  distinct := h.distinct.sublist ((hfew.flatMap _).map _)

theorem Compatible.perm {batches order : List Batch} (h : Compatible batches)
    (horder : order.Perm batches) : Compatible order where
  owned b hb := h.owned b (horder.mem_iff.mp hb)
  distinct := (((horder.flatMap_right _).map _).nodup_iff).mpr h.distinct

theorem Compatible.defs_nodup {batches : List Batch} (h : Compatible batches) :
    (defsOf batches).Nodup :=
  h.distinct.of_map _

/-!
# What an index holds
-/

/-- The index maps the names of merged batches to their definitions, and no other name. -/
structure Holds (i : Index) (merged : List Batch) : Prop where
  compatible : Compatible merged
  lookup : forall full d,
    i.table.get? full = some d ↔ d ∈ defsOf merged ∧ d.name.full = full

theorem holds_empty : Holds empty [] where
  compatible := ⟨fun _ hb => absurd hb List.not_mem_nil, List.nodup_nil⟩
  lookup _ _ := iff_of_false (fun h => by cases h) (fun h => List.not_mem_nil h.1)

namespace Holds

variable {i : Index} {merged : List Batch}

theorem get?_eq_none_iff (h : Holds i merged) (name : TypeName) :
    i.get? name = none ↔ name.full ∉ (defsOf merged).map fun d => d.name.full := by
  rw [List.mem_map]
  constructor
  · rintro hnone ⟨d, hd, hname⟩
    have hsome : i.get? name = some d := (h.lookup name.full d).mpr ⟨hd, hname⟩
    rw [hnone] at hsome
    cases hsome
  · intro hnew
    cases hget : i.get? name with
    | none => rfl
    | some d => exact absurd ⟨d, (h.lookup name.full d).mp hget⟩ hnew

/-- A batch is accepted when it goes together with all that were merged. -/
theorem accepts_iff (h : Holds i merged) (b : Batch) :
    i.Accepts b.path b.defs ↔ Compatible (merged ++ [b]) := by
  constructor
  · intro haccepts
    refine ⟨?_, ?_⟩
    · intro c hc
      rcases List.mem_append.mp hc with hold | hnew
      · exact h.compatible.owned c hold
      · cases List.mem_singleton.mp hnew
        exact haccepts.owned
    · rw [defsOf_append, defsOf_singleton, List.map_append, List.nodup_append']
      refine ⟨h.compatible.distinct, haccepts.distinct, ?_⟩
      intro full hold hnew
      rcases List.mem_map.mp hnew with ⟨d, hd, rfl⟩
      exact (h.get?_eq_none_iff d.name).mp (haccepts.fresh d hd) hold
  · rintro ⟨howned, hdistinct⟩
    rw [defsOf_append, defsOf_singleton, List.map_append, List.nodup_append'] at hdistinct
    obtain ⟨_, hbatch, hdisjoint⟩ := hdistinct
    refine ⟨howned b (List.mem_append_right _ List.mem_cons_self), ?_, hbatch⟩
    intro d hd
    rw [h.get?_eq_none_iff]
    exact fun hold => hdisjoint hold (List.mem_map_of_mem hd)

theorem insertAll (h : Holds i merged) {b : Batch} (hb : i.Accepts b.path b.defs) :
    Holds (i.insertAll b.defs) (merged ++ [b]) where
  compatible := (h.accepts_iff b).mp hb
  lookup full d := by
    rw [defsOf_append, defsOf_singleton, List.mem_append]
    constructor
    · intro hget
      rcases mem_or_get?_of_get?_insertAll hb hget with ⟨hd, hname⟩ | hold
      · exact ⟨Or.inr hd, hname⟩
      · obtain ⟨hd, hname⟩ := (h.lookup full d).mp hold
        exact ⟨Or.inl hd, hname⟩
    · rintro ⟨hold | hnew, rfl⟩
      · exact get?_insertAll_of_some hb ((h.lookup _ d).mpr ⟨hold, rfl⟩)
      · exact get?_insertAll_of_mem hb hnew

theorem after (h : Holds i merged) (batches : List Batch) :
    Holds (i.after batches) (merged ++ i.succeeded batches) := by
  induction batches generalizing i merged with
  | nil => simpa [Index.after, succeeded] using h
  | cons b rest ih =>
      rw [Index.after, succeeded]
      rcases call_cases i b with ⟨haccepts, _, hcall⟩ | ⟨_, e, _, _, hcall⟩
      · rw [hcall]
        simpa using ih (h.insertAll haccepts)
      · rw [hcall]
        exact ih h

theorem succeeded_eq (h : Holds i merged) {batches : List Batch}
    (hbatches : Compatible (merged ++ batches)) : i.succeeded batches = batches := by
  induction batches generalizing i merged with
  | nil => rfl
  | cons b rest ih =>
      have hb : i.Accepts b.path b.defs := by
        rw [h.accepts_iff]
        exact hbatches.sublist
          ((List.Sublist.refl merged).append (List.singleton_sublist.mpr List.mem_cons_self))
      rw [succeeded]
      rcases call_cases i b with ⟨_, _, hcall⟩ | ⟨hnot, _⟩
      · rw [hcall, ih (h.insertAll hb) (by simpa using hbatches)]
      · exact absurd hb hnot

/-- What was merged says what the index is, whatever the order. -/
theorem eq_of_perm {j : Index} {order : List Batch} (h : Holds i merged) (hj : Holds j order)
    (hperm : order.Perm merged) : j = i := by
  have htable : j.table = i.table := by
    apply Table.eq_of_get?
    intro full
    apply Option.ext
    intro d
    rw [hj.lookup, h.lookup, defsOf, defsOf, (hperm.flatMap_right _).mem_iff]
  cases i
  cases j
  cases htable
  rfl

/-!
# Definitions in order
-/

theorem pairwise_definitions (h : Holds i merged) :
    i.definitions.Pairwise fun c d => c.name.full < d.name.full := by
  unfold definitions Table.values
  rw [List.pairwise_map]
  refine List.Pairwise.imp_of_mem ?_ i.table.sorted
  rintro ⟨key, c⟩ ⟨key', d⟩ hc hd hlt
  obtain ⟨_, rfl⟩ := (h.lookup key c).mp (Table.mem_entries_iff.mp hc)
  obtain ⟨_, rfl⟩ := (h.lookup key' d).mp (Table.mem_entries_iff.mp hd)
  exact hlt

theorem mem_definitions_iff (h : Holds i merged) (d : TypeDef) :
    d ∈ i.definitions ↔ d ∈ defsOf merged := by
  unfold definitions
  rw [Table.mem_values_iff]
  constructor
  · rintro ⟨key, hget⟩
    exact ((h.lookup key d).mp hget).1
  · intro hd
    exact ⟨d.name.full, (h.lookup _ d).mpr ⟨hd, rfl⟩⟩

theorem mem_defsOf_filter_iff (h : Holds i merged) (path : String) (d : TypeDef) :
    d ∈ defsOf (merged.filter fun b => b.path == path) ↔
      d ∈ defsOf merged ∧ d.name.packagePath = path := by
  simp only [mem_defsOf, List.mem_filter, beq_iff_eq]
  constructor
  · rintro ⟨b, ⟨hb, rfl⟩, hd⟩
    exact ⟨⟨b, hb, hd⟩, h.compatible.owned b hb d hd⟩
  · rintro ⟨⟨b, hb, hd⟩, rfl⟩
    exact ⟨b, ⟨hb, (h.compatible.owned b hb d hd).symm⟩, hd⟩

theorem pairwise_package (h : Holds i merged) (path : String) :
    (i.package path).Pairwise fun c d => c.name.full < d.name.full :=
  h.pairwise_definitions.filter _

theorem package_perm (h : Holds i merged) (path : String) :
    (i.package path).Perm (defsOf (merged.filter fun b => b.path == path)) := by
  have hpackage : (i.package path).Nodup := by
    apply (h.pairwise_package path).imp
    intro c d hlt heq
    rw [heq] at hlt
    exact String.lt_irrefl _ hlt
  rw [List.perm_ext_iff_of_nodup hpackage
    (h.compatible.sublist List.filter_sublist).defs_nodup]
  intro d
  rw [h.mem_defsOf_filter_iff, ← h.mem_definitions_iff, package, List.mem_filter, beq_iff_eq]

end Holds

/-!
# Runs on an empty index
-/

/-- A run of calls is all or nothing, call by call, and comes to the batches that succeed. -/
structure MergesWhole (batches : List Batch) : Prop where
  accepted : forall before b, before ++ [b] <+: batches ->
    (empty.after before).Accepts b.path b.defs ->
    (call (empty.after before) b).1 = .ok () ∧
      (empty.after before).merge b.path b.defs = .ok (call (empty.after before) b).2
  refused : forall before b, before ++ [b] <+: batches ->
    ¬ (empty.after before).Accepts b.path b.defs ->
    exists e, e.isInvariant = true ∧ call (empty.after before) b = (.error e, empty.after before) ∧
      (empty.after before).merge b.path b.defs = .error e
  lookup : forall full d, (empty.after batches).table.get? full = some d ↔
    exists b, b ∈ empty.succeeded batches ∧ d ∈ b.defs ∧ d.name.full = full
  package_perm : forall path, ((empty.after batches).package path).Perm
    (((empty.succeeded batches).filter fun b => b.path == path).flatMap (·.defs))
  package_sorted : forall path,
    ((empty.after batches).package path).Pairwise fun c d => c.name.full < d.name.full
  reordered : forall order, order.Perm (empty.succeeded batches) ->
    empty.succeeded order = order ∧ empty.after order = empty.after batches
  determined : forall other, (empty.succeeded other).Perm (empty.succeeded batches) ->
    empty.after other = empty.after batches

theorem mergesWhole (batches : List Batch) : MergesWhole batches := by
  have hholds : forall run, Holds (empty.after run) (empty.succeeded run) :=
    fun run => holds_empty.after run
  have hdetermined : forall other, (empty.succeeded other).Perm (empty.succeeded batches) ->
      empty.after other = empty.after batches :=
    fun other hperm => (hholds batches).eq_of_perm (hholds other) hperm
  refine ⟨?_, ?_, ?_, (hholds batches).package_perm, (hholds batches).pairwise_package, ?_,
    hdetermined⟩
  · intro before b _ haccepts
    rcases call_cases (empty.after before) b with ⟨_, hmerge, hcall⟩ | ⟨hnot, _⟩
    · rw [hcall]
      exact ⟨rfl, hmerge⟩
    · exact absurd haccepts hnot
  · intro before b _ hnot
    rcases call_cases (empty.after before) b with ⟨haccepts, _⟩ | ⟨_, e, he, hmerge, hcall⟩
    · exact absurd haccepts hnot
    · exact ⟨e, he, hcall, hmerge⟩
  · intro full d
    rw [(hholds batches).lookup, mem_defsOf]
    constructor
    · rintro ⟨⟨b, hb, hd⟩, hname⟩
      exact ⟨b, hb, hd, hname⟩
    · rintro ⟨b, hb, hd, hname⟩
      exact ⟨⟨b, hb, hd⟩, hname⟩
  · intro order horder
    have hall : empty.succeeded order = order :=
      holds_empty.succeeded_eq ((hholds batches).compatible.perm horder)
    exact ⟨hall, hdetermined order (hall.symm ▸ horder)⟩

/-- Names of two packages can be written the same; the batch with the second is refused whole. -/
example :
    let first : Batch := ⟨"a.b", [.plain (.declared "a.b" "c") (.basic .int)]⟩
    let second : Batch := ⟨"a", [.plain (.declared "a" "d") (.basic .int),
      .plain (.declared "a" "b.c") (.basic .int)]⟩
    (call (empty.after [first]) second).1 = .error (.invariant "double-up: a.b.c") ∧
      (call (empty.after [first]) second).2.size = 1 :=
  ⟨rfl, rfl⟩

end Index
end GoAtlas
