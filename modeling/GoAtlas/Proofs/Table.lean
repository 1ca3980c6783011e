import GoAtlas.Table
import Mathlib.Data.List.Nodup
import Mathlib.Data.List.Perm.Basic

/-!
# Tables as finite maps

A table is seen through its lookup function and, since its keys are distinct, through its
entries as well.  Writing a key changes the lookup at that key only, and writing new keys adds
exactly the new entries.
-/

namespace GoAtlas
namespace Table

variable {α : Type}

/-!
# Lookup
-/

@[simp] theorem get?_empty (key : String) : (empty : Table α).get? key = none := rfl

theorem lookup_put_self (key : String) (value : α) (entries : List (String × α)) :
    (put key value entries).lookup key = some value := by
  fun_induction put key value entries with
  | case1 => simp
  | case2 k v rest hlt => simp
  | case3 k v rest hlt heq => simp
  | case4 k v rest hlt hne ih =>
      have hbeq : (key == k) = false := by simpa using hne
      simp [List.lookup_cons, hbeq, ih]

theorem lookup_put_of_ne {key other : String} (value : α) (entries : List (String × α))
    (h : other ≠ key) : (put key value entries).lookup other = entries.lookup other := by
  have hother : (other == key) = false := by simpa using h
  fun_induction put key value entries with
  | case1 => simp [h]
  | case2 k v rest hlt => simp [List.lookup_cons, hother]
  | case3 k v rest hlt heq =>
      have hk : key = k := by simpa using heq
      subst hk
      simp [List.lookup_cons, hother]
  | case4 k v rest hlt hne ih => simp [List.lookup_cons, ih]

@[simp] theorem get?_insert_self (t : Table α) (key : String) (value : α) :
    (t.insert key value).get? key = some value :=
  lookup_put_self key value t.entries

theorem get?_insert_of_ne (t : Table α) {key other : String} (value : α) (h : other ≠ key) :
    (t.insert key value).get? other = t.get? other :=
  lookup_put_of_ne value t.entries h

theorem get?_insert (t : Table α) (key other : String) (value : α) :
    (t.insert key value).get? other = if other = key then some value else t.get? other := by
  by_cases h : other = key
  · rw [if_pos h, h, get?_insert_self]
  · rw [if_neg h, get?_insert_of_ne t value h]

theorem get?_insert_eq_some_iff {t : Table α} {key other : String} {value v : α}
    (hnew : t.get? key = none) :
    (t.insert key value).get? other = some v ↔
      t.get? other = some v ∨ (other, v) = (key, value) := by
  rw [get?_insert]
  by_cases h : other = key
  · rw [if_pos h, h, hnew]
    simp [eq_comm]
  · rw [if_neg h]
    simp [h]

theorem forall_get?_insert {t : Table α} {key : String} {value : α} {P : String -> α -> Prop}
    (h : forall k v, t.get? k = some v -> P k v) (hnew : P key value) :
    forall k v, (t.insert key value).get? k = some v -> P k v := by
  intro k v hv
  rw [get?_insert] at hv
  split at hv
  · next heq =>
      cases hv
      exact heq ▸ hnew
  · exact h k v hv

theorem contains_iff {t : Table α} {key : String} :
    t.contains key = true ↔ exists value, t.get? key = some value :=
  Option.isSome_iff_exists

theorem get?_insertNew (t : Table α) (key other : String) (value : α) :
    (t.insertNew key value).get? other =
      (t.get? other).or (if other == key then some value else none) := by
  unfold insertNew
  by_cases hkey : other = key
  · subst hkey
    split
    · next hold =>
        obtain ⟨old, hold⟩ := contains_iff.mp hold
        simp [hold]
    · next hnew =>
        have hnone : t.get? other = none := by
          simpa [contains] using hnew
        simp [hnone]
  · split
    · simp [hkey]
    · simp [hkey, get?_insert_of_ne t value hkey]

theorem get?_foldl_insertNew (pairs : List (String × α)) (t : Table α) (key : String) :
    (pairs.foldl (fun t p => t.insertNew p.1 p.2) t).get? key =
      (t.get? key).or (pairs.lookup key) := by
  induction pairs generalizing t with
  | nil => simp
  | cons p rest ih =>
      rw [List.foldl_cons, ih, get?_insertNew, Option.or_assoc, List.lookup_cons]
      cases key == p.1 with
      | true => rfl
      | false => rfl

theorem get?_addNew (t new : Table α) (key : String) :
    (t.addNew new).get? key = (t.get? key).or (new.get? key) :=
  get?_foldl_insertNew new.entries t key

/-!
# Entries

The keys of a table are distinct, so an entry is there exactly when a lookup finds it.
-/

theorem keys_nodup (t : Table α) : t.keys.Nodup := by
  unfold keys
  rw [List.Nodup, List.pairwise_map]
  apply t.sorted.imp
  intro a b hlt heq
  rw [heq] at hlt
  exact String.lt_irrefl _ hlt

theorem lookup_of_mem {key : String} {value : α} {entries : List (String × α)}
    (hnodup : (entries.map (·.1)).Nodup) (h : (key, value) ∈ entries) :
    entries.lookup key = some value := by
  induction entries with
  | nil => cases h
  | cons entry rest ih =>
      rw [List.map_cons, List.nodup_cons] at hnodup
      rcases List.mem_cons.mp h with hhead | hrest
      · subst hhead
        exact List.lookup_cons_self
      · have hne : (key == entry.1) = false := by
          simp only [beq_eq_false_iff_ne]
          intro heq
          exact hnodup.1 (heq ▸ List.mem_map_of_mem hrest)
        rw [List.lookup_cons, hne]
        exact ih hnodup.2 hrest

theorem mem_of_lookup {key : String} {value : α} {entries : List (String × α)}
    (h : entries.lookup key = some value) : (key, value) ∈ entries := by
  obtain ⟨front, back, heq, _⟩ := List.lookup_eq_some_iff.mp h
  rw [heq]
  exact List.mem_append_right _ List.mem_cons_self

theorem mem_entries_iff {t : Table α} {key : String} {value : α} :
    (key, value) ∈ t.entries ↔ t.get? key = some value := by
  constructor
  · exact lookup_of_mem t.keys_nodup
  · exact mem_of_lookup

theorem mem_values_iff {t : Table α} {value : α} :
    value ∈ t.values ↔ exists key, t.get? key = some value := by
  unfold values
  rw [List.mem_map]
  constructor
  · rintro ⟨⟨key, v⟩, hmem, rfl⟩
    exact ⟨key, mem_entries_iff.mp hmem⟩
  · rintro ⟨key, h⟩
    exact ⟨(key, value), mem_entries_iff.mpr h, rfl⟩

theorem mem_keys_iff {t : Table α} {key : String} :
    key ∈ t.keys ↔ exists value, t.get? key = some value := by
  unfold keys
  rw [List.mem_map]
  constructor
  · rintro ⟨⟨k, value⟩, hmem, rfl⟩
    exact ⟨value, mem_entries_iff.mp hmem⟩
  · rintro ⟨value, h⟩
    exact ⟨(key, value), mem_entries_iff.mpr h, rfl⟩

theorem entries_nodup (t : Table α) : t.entries.Nodup :=
  List.Nodup.of_map _ t.keys_nodup

theorem eq_of_lt_of_lt (a b : String × α) (hab : a.1 < b.1) (hba : b.1 < a.1) : a = b :=
  absurd (String.lt_trans hab hba) (String.lt_irrefl _)

theorem eq_of_get? {t u : Table α} (h : forall key, t.get? key = u.get? key) : t = u := by
  have hperm : t.entries.Perm u.entries := by
    rw [List.perm_ext_iff_of_nodup t.entries_nodup u.entries_nodup]
    rintro ⟨key, value⟩
    rw [mem_entries_iff, mem_entries_iff, h]
  have hentries : t.entries = u.entries :=
    List.Perm.eq_of_pairwise (fun a b _ _ => eq_of_lt_of_lt a b) t.sorted u.sorted hperm
  cases t
  cases u
  cases hentries
  rfl

theorem entries_eq_filter {t u : Table α}
    (h : forall key value, t.get? key = some value -> u.get? key = some value) :
    t.entries = u.entries.filter fun entry => t.contains entry.1 := by
  refine List.Perm.eq_of_pairwise (fun a b _ _ => eq_of_lt_of_lt a b) t.sorted
    (List.Pairwise.filter _ u.sorted) ?_
  rw [List.perm_ext_iff_of_nodup t.entries_nodup (u.entries_nodup.filter _)]
  rintro ⟨key, value⟩
  rw [List.mem_filter, mem_entries_iff, mem_entries_iff, contains_iff]
  constructor
  · intro hvalue
    exact ⟨h key value hvalue, value, hvalue⟩
  · rintro ⟨hvalue, old, hold⟩
    cases (h key old hold).symm.trans hvalue
    exact hold

/-!
# New keys

Writing keys that are not there yet permutes the new entries with the old ones.
-/

theorem put_perm {key : String} {value : α} {entries : List (String × α)}
    (h : entries.lookup key = none) : (put key value entries).Perm ((key, value) :: entries) := by
  fun_induction put key value entries with
  | case1 => exact List.Perm.refl _
  | case2 k v rest hlt => exact List.Perm.refl _
  | case3 k v rest hlt heq =>
      have hk : key = k := by simpa using heq
      rw [hk, List.lookup_cons_self] at h
      cases h
  | case4 k v rest hlt hne ih =>
      have hbeq : (key == k) = false := by simpa using hne
      rw [List.lookup_cons, hbeq] at h
      exact ((ih h).cons (k, v)).trans (List.Perm.swap _ _ _)

theorem filter_put {key : String} {value : α} {entries : List (String × α)} {p : α -> Bool}
    (h : entries.lookup key = none) (hvalue : p value = false) :
    ((put key value entries).map Prod.snd).filter p = (entries.map Prod.snd).filter p := by
  fun_induction put key value entries with
  | case1 => simp [hvalue]
  | case2 k v rest hlt => simp [List.filter_cons, hvalue]
  | case3 k v rest hlt heq =>
      have hk : key = k := by simpa using heq
      rw [hk, List.lookup_cons_self] at h
      cases h
  | case4 k v rest hlt hne ih =>
      have hbeq : (key == k) = false := by simpa using hne
      rw [List.lookup_cons, hbeq] at h
      simp only [List.map_cons, List.filter_cons, ih h]

theorem values_insert_perm {t : Table α} {key : String} {value : α} (h : t.get? key = none) :
    (t.insert key value).values.Perm (value :: t.values) :=
  (put_perm h).map Prod.snd

def insertPairs (t : Table α) (pairs : List (String × α)) : Table α :=
  pairs.foldl (fun t p => t.insert p.1 p.2) t

theorem get?_insertPairs_of_notMem {t : Table α} {pairs : List (String × α)} {key : String}
    (h : key ∉ pairs.map (·.1)) : (t.insertPairs pairs).get? key = t.get? key := by
  induction pairs generalizing t with
  | nil => rfl
  | cons p rest ih =>
      rw [List.map_cons, List.mem_cons, not_or] at h
      show ((t.insert p.1 p.2).insertPairs rest).get? key = t.get? key
      rw [ih h.2, get?_insert_of_ne t p.2 h.1]

theorem fresh_of_fresh_cons {t : Table α} {p : String × α} {rest : List (String × α)}
    (hnew : p.1 ∉ rest.map (·.1))
    (hfresh : forall key, key ∈ (p :: rest).map (·.1) -> t.get? key = none) :
    forall key, key ∈ rest.map (·.1) -> (t.insert p.1 p.2).get? key = none := by
  intro key hkey
  have hne : key ≠ p.1 := by
    intro heq
    exact hnew (heq ▸ hkey)
  rw [get?_insert_of_ne t p.2 hne]
  exact hfresh key (List.mem_cons_of_mem _ hkey)

theorem insertPairs_perm {t : Table α} {pairs : List (String × α)}
    (hnodup : (pairs.map (·.1)).Nodup)
    (hfresh : forall key, key ∈ pairs.map (·.1) -> t.get? key = none) :
    (t.insertPairs pairs).entries.Perm (pairs ++ t.entries) := by
  induction pairs generalizing t with
  | nil => exact List.Perm.refl _
  | cons p rest ih =>
      rw [List.map_cons, List.nodup_cons] at hnodup
      have hrest := fresh_of_fresh_cons hnodup.1 hfresh
      have hput : (t.insert p.1 p.2).entries.Perm (p :: t.entries) :=
        put_perm (hfresh p.1 List.mem_cons_self)
      exact (ih hnodup.2 hrest).trans
        ((hput.append_left rest).trans List.perm_middle)

theorem filter_insertPairs {t : Table α} {pairs : List (String × α)} {p : α -> Bool}
    (hnodup : (pairs.map (·.1)).Nodup)
    (hfresh : forall key, key ∈ pairs.map (·.1) -> t.get? key = none)
    (hvalues : forall q, q ∈ pairs -> p q.2 = false) :
    (t.insertPairs pairs).values.filter p = t.values.filter p := by
  induction pairs generalizing t with
  | nil => rfl
  | cons q rest ih =>
      rw [List.map_cons, List.nodup_cons] at hnodup
      have hrest := fresh_of_fresh_cons hnodup.1 hfresh
      have hput : (t.insert q.1 q.2).values.filter p = t.values.filter p :=
        filter_put (hfresh q.1 List.mem_cons_self) (hvalues q List.mem_cons_self)
      rw [← hput]
      exact ih hnodup.2 hrest fun r hr => hvalues r (List.mem_cons_of_mem _ hr)

theorem get?_insertPairs_of_mem {t : Table α} {pairs : List (String × α)} {p : String × α}
    (hnodup : (pairs.map (·.1)).Nodup) (h : p ∈ pairs) :
    (t.insertPairs pairs).get? p.1 = some p.2 := by
  induction pairs generalizing t with
  | nil => cases h
  | cons q rest ih =>
      rw [List.map_cons, List.nodup_cons] at hnodup
      show ((t.insert q.1 q.2).insertPairs rest).get? p.1 = some p.2
      rcases List.mem_cons.mp h with hhead | hrest
      · subst hhead
        rw [get?_insertPairs_of_notMem hnodup.1, get?_insert_self]
      · exact ih hnodup.2 hrest

theorem get?_insertPairs_cases {t : Table α} {pairs : List (String × α)} {key : String} {value : α}
    (h : (t.insertPairs pairs).get? key = some value) :
    t.get? key = some value ∨ (key, value) ∈ pairs := by
  induction pairs generalizing t with
  | nil => exact Or.inl h
  | cons p rest ih =>
      rcases ih (t := t.insert p.1 p.2) h with hold | hrest
      · rw [get?_insert] at hold
        split at hold
        · next heq =>
            cases hold
            exact Or.inr (heq ▸ List.mem_cons_self)
        · exact Or.inl hold
      · exact Or.inr (List.mem_cons_of_mem _ hrest)

theorem contains_insertPairs_iff {t : Table α} {pairs : List (String × α)} {key : String} :
    (t.insertPairs pairs).contains key = true ↔
      t.contains key = true ∨ key ∈ pairs.map (·.1) := by
  induction pairs generalizing t with
  | nil => simp [insertPairs]
  | cons p rest ih =>
      have hinsert : (t.insert p.1 p.2).contains key = true ↔
          t.contains key = true ∨ key = p.1 := by
        rw [contains, get?_insert]
        split
        · next heq => simp [heq]
        · next hne => simp [hne, contains]
      show ((t.insert p.1 p.2).insertPairs rest).contains key = true ↔ _
      rw [ih, hinsert, or_assoc, List.map_cons, List.mem_cons]

theorem ofList_eq_insertPairs (pairs : List (String × α)) :
    ofList pairs = empty.insertPairs pairs := rfl

theorem get?_ofList_iff {pairs : List (String × α)} (hnodup : (pairs.map (·.1)).Nodup)
    {key : String} {value : α} :
    (ofList pairs).get? key = some value ↔ (key, value) ∈ pairs := by
  constructor
  · intro h
    have hmem : (key, value) ∈ (ofList pairs).entries := mem_entries_iff.mpr h
    have hperm := insertPairs_perm (t := empty) hnodup (fun _ _ => rfl)
    simpa [empty] using hperm.mem_iff.mp hmem
  · exact get?_insertPairs_of_mem hnodup

end Table
end GoAtlas
