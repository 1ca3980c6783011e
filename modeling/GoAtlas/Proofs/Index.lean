import GoAtlas.Index
import GoAtlas.Proofs.Table

/-!
# Merging into the index

A batch of definitions is accepted exactly when all of them belong to the package and have
names that are new and distinct.  An accepted batch adds its definitions and leaves those of
every other package as they are; a refused batch is a broken invariant.
-/

namespace GoAtlas

/-!
# Full names
-/

namespace Text

theorem cutLast?_eq_none {sep : Char} {cs : List Char} (h : sep ∉ cs) :
    cutLast? sep cs = none := by
  induction cs with
  | nil => rfl
  | cons c rest ih =>
      rw [List.mem_cons, not_or] at h
      have hc : (c == sep) = false := by
        simpa using fun heq => h.1 heq.symm
      simp [cutLast?, ih h.2, hc]

theorem cutLast?_append {sep : Char} (before : List Char) {after : List Char}
    (h : sep ∉ after) : cutLast? sep (before ++ sep :: after) = some (before, after) := by
  induction before with
  | nil => simp [cutLast?, cutLast?_eq_none h]
  | cons c rest ih => simp [cutLast?, ih]

end Text

namespace TypeName

theorem toList_full_declared (package name : String) :
    (declared package name).full.toList = package.toList ++ '.' :: name.toList := by
  simp [full]

theorem eq_of_full_declared {package name name' : String}
    (h : (declared package name).full = (declared package name').full) : name = name' := by
  have hchars := congrArg String.toList h
  rw [toList_full_declared, toList_full_declared] at hchars
  have hrest := List.append_cancel_left hchars
  exact String.toList_inj.mp (List.cons.inj hrest).2

theorem declared_eq_of_full_eq {package other name name' : String}
    (hname : '.' ∉ name.toList) (hname' : '.' ∉ name'.toList)
    (h : (declared package name).full = (declared other name').full) :
    package = other ∧ name = name' := by
  have hcut := congrArg (fun full => Text.cutLast? '.' full.toList) h
  simp only [toList_full_declared] at hcut
  rw [Text.cutLast?_append _ hname, Text.cutLast?_append _ hname'] at hcut
  injection hcut with hpair
  injection hpair with hpackage hlocal
  exact ⟨String.toList_inj.mp hpackage, String.toList_inj.mp hlocal⟩

/-- A full name with one dot can be cut in one way only. -/
theorem not_mem_of_full_eq {package other name name' : String}
    (hpackage : '.' ∉ package.toList) (hname : '.' ∉ name.toList)
    (h : (declared package name).full = (declared other name').full) :
    '.' ∉ name'.toList := by
  have hcount := congrArg (fun full => full.toList.count '.') h
  simp only [toList_full_declared, List.count_append, List.count_cons_self] at hcount
  rw [List.count_eq_zero.mpr hpackage, List.count_eq_zero.mpr hname] at hcount
  apply List.count_eq_zero.mp
  omega

theorem eq_declared_of_packagePath {n : TypeName} {package : String}
    (h : n.packagePath = package) (hpackage : package ≠ "") : n = declared package n.name := by
  cases n with
  | builtin name => exact absurd h.symm hpackage
  | declared path name =>
      cases h
      rfl

end TypeName

namespace Index

/-!
# Accepted batches
-/

/-- What a batch of definitions has to be like for a package of the index. -/
structure Accepts (i : Index) (path : String) (defs : List TypeDef) : Prop where
  owned : forall d, d ∈ defs -> d.name.packagePath = path
  fresh : forall d, d ∈ defs -> i.get? d.name = none
  distinct : (defs.map fun d => d.name.full).Nodup

theorem contains_eq_false {i : Index} {name : TypeName} :
    i.contains name = false ↔ i.get? name = none :=
  Option.isSome_eq_false_iff.trans Option.isNone_iff_eq_none

theorem firstFault?_cons_eq_none_iff {i : Index} {path : String} {seen : List String}
    {d : TypeDef} {rest : List TypeDef} :
    firstFault? i path seen (d :: rest) = none ↔
      d.name.packagePath = path ∧ i.get? d.name = none ∧ d.name.full ∉ seen ∧
        firstFault? i path (d.name.full :: seen) rest = none := by
  rw [← contains_eq_false]
  by_cases howned : d.name.packagePath = path
  · by_cases hknown : i.contains d.name = true
    · simp [firstFault?, howned, hknown]
    · by_cases hseen : d.name.full ∈ seen
      · simp [firstFault?, howned, hknown, hseen]
      · simp [firstFault?, howned, hknown, hseen]
  · simp [firstFault?, howned]

theorem accepts_cons_iff {i : Index} {path : String} {d : TypeDef} {rest : List TypeDef} :
    i.Accepts path (d :: rest) ↔
      d.name.packagePath = path ∧ i.get? d.name = none ∧
        d.name.full ∉ rest.map (fun d => d.name.full) ∧ i.Accepts path rest := by
  constructor
  · rintro ⟨howned, hfresh, hdistinct⟩
    rw [List.map_cons, List.nodup_cons] at hdistinct
    rw [List.forall_mem_cons] at howned hfresh
    exact ⟨howned.1, hfresh.1, hdistinct.1, howned.2, hfresh.2, hdistinct.2⟩
  · rintro ⟨howned, hfresh, hnew, hrest⟩
    refine ⟨List.forall_mem_cons.mpr ⟨howned, hrest.owned⟩,
      List.forall_mem_cons.mpr ⟨hfresh, hrest.fresh⟩, ?_⟩
    rw [List.map_cons, List.nodup_cons]
    exact ⟨hnew, hrest.distinct⟩

theorem firstFault?_eq_none_iff {i : Index} {path : String} {seen : List String}
    {defs : List TypeDef} :
    firstFault? i path seen defs = none ↔
      i.Accepts path defs ∧ forall full, full ∈ seen -> full ∉ defs.map fun d => d.name.full := by
  induction defs generalizing seen with
  | nil =>
      refine iff_of_true rfl ⟨⟨?_, ?_, List.nodup_nil⟩, ?_⟩
      · intro d hd
        cases hd
      · intro d hd
        cases hd
      · intro full _
        exact List.not_mem_nil
  | cons d rest ih =>
      rw [firstFault?_cons_eq_none_iff, accepts_cons_iff, ih, List.forall_mem_cons]
      simp only [List.map_cons, List.mem_cons, not_or]
      constructor
      · rintro ⟨howned, hfresh, hseen, hrest, hnew, hother⟩
        refine ⟨⟨howned, hfresh, hnew, hrest⟩, ?_⟩
        intro full hfull
        exact ⟨fun heq => hseen (heq ▸ hfull), hother full hfull⟩
      · rintro ⟨⟨howned, hfresh, hnew, hrest⟩, hall⟩
        exact ⟨howned, hfresh, fun hmem => (hall _ hmem).1 rfl, hrest, hnew,
          fun full hfull => (hall full hfull).2⟩

theorem isInvariant_of_firstFault? {i : Index} {path : String} {seen : List String}
    {defs : List TypeDef} {e : Error} (h : firstFault? i path seen defs = some e) :
    e.isInvariant = true := by
  induction defs generalizing seen with
  | nil => cases h
  | cons d rest ih =>
      unfold firstFault? at h
      split at h
      · cases h
        rfl
      · split at h
        · cases h
          rfl
        · exact ih h

theorem merge_eq_ok_iff {i j : Index} {path : String} {defs : List TypeDef} :
    i.merge path defs = .ok j ↔ i.Accepts path defs ∧ i.insertAll defs = j := by
  unfold merge
  cases hfault : firstFault? i path [] defs with
  | none =>
      have haccepts := (firstFault?_eq_none_iff.mp hfault).1
      simp [haccepts]
  | some e =>
      have hnot : ¬ i.Accepts path defs := by
        intro haccepts
        have hnone := firstFault?_eq_none_iff.mpr
          ⟨haccepts, fun _ hfull => absurd hfull List.not_mem_nil⟩
        rw [hnone] at hfault
        cases hfault
      simp [hnot]

theorem isInvariant_of_merge {i : Index} {path : String} {defs : List TypeDef} {e : Error}
    (h : i.merge path defs = .error e) : e.isInvariant = true := by
  unfold merge at h
  split at h
  · next hfault =>
      cases h
      exact isInvariant_of_firstFault? hfault
  · cases h

/-!
# What a merge adds
-/

theorem table_insertAll (i : Index) (defs : List TypeDef) :
    (i.insertAll defs).table = i.table.insertPairs (defs.map fun d => (d.name.full, d)) := by
  simp [insertAll, Table.insertPairs, List.foldl_map]

theorem Accepts.pairs_nodup {i : Index} {path : String} {defs : List TypeDef}
    (h : i.Accepts path defs) :
    ((defs.map fun d => (d.name.full, d)).map (·.1)).Nodup := by
  rw [List.map_map]
  exact h.distinct

theorem Accepts.pairs_fresh {i : Index} {path : String} {defs : List TypeDef}
    (h : i.Accepts path defs) (key : String)
    (hkey : key ∈ (defs.map fun d => (d.name.full, d)).map (·.1)) :
    i.table.get? key = none := by
  rw [List.map_map] at hkey
  rcases List.mem_map.mp hkey with ⟨d, hd, rfl⟩
  exact h.fresh d hd

theorem definitions_insertAll_perm {i : Index} {path : String} {defs : List TypeDef}
    (h : i.Accepts path defs) :
    (i.insertAll defs).definitions.Perm (defs ++ i.definitions) := by
  have hperm := (Table.insertPairs_perm h.pairs_nodup h.pairs_fresh).map Prod.snd
  simpa [definitions, Table.values, table_insertAll, List.map_map, Function.comp_def] using hperm

theorem get?_insertAll_of_some {i : Index} {path : String} {defs : List TypeDef}
    (h : i.Accepts path defs) {name : TypeName} {d : TypeDef} (hget : i.get? name = some d) :
    (i.insertAll defs).get? name = some d := by
  show (i.insertAll defs).table.get? name.full = some d
  rw [table_insertAll, Table.get?_insertPairs_of_notMem]
  · exact hget
  · intro hmem
    have hfresh := h.pairs_fresh name.full hmem
    rw [show i.table.get? name.full = some d from hget] at hfresh
    cases hfresh

theorem get?_insertAll_of_mem {i : Index} {path : String} {defs : List TypeDef}
    (h : i.Accepts path defs) {d : TypeDef} (hd : d ∈ defs) :
    (i.insertAll defs).get? d.name = some d := by
  show (i.insertAll defs).table.get? d.name.full = some d
  rw [table_insertAll]
  exact Table.get?_insertPairs_of_mem (p := (d.name.full, d)) h.pairs_nodup
    (List.mem_map_of_mem (f := fun d => (d.name.full, d)) hd)

theorem mem_or_get?_of_get?_insertAll {i : Index} {path : String} {defs : List TypeDef}
    (h : i.Accepts path defs) {full : String} {d : TypeDef}
    (hget : (i.insertAll defs).table.get? full = some d) :
    (d ∈ defs ∧ d.name.full = full) ∨ i.table.get? full = some d := by
  by_cases hmem : full ∈ (defs.map fun d => (d.name.full, d)).map (·.1)
  · rw [List.map_map] at hmem
    rcases List.mem_map.mp hmem with ⟨e, he, rfl⟩
    cases (get?_insertAll_of_mem h he).symm.trans hget
    exact Or.inl ⟨he, rfl⟩
  · rw [table_insertAll, Table.get?_insertPairs_of_notMem hmem] at hget
    exact Or.inr hget

theorem package_insertAll_of_ne {i : Index} {path other : String} {defs : List TypeDef}
    (h : i.Accepts path defs) (hne : other ≠ path) :
    (i.insertAll defs).package other = i.package other := by
  unfold package definitions
  rw [table_insertAll]
  refine Table.filter_insertPairs h.pairs_nodup h.pairs_fresh ?_
  intro q hq
  rcases List.mem_map.mp hq with ⟨d, hd, rfl⟩
  simpa [h.owned d hd] using hne.symm

end Index
end GoAtlas
