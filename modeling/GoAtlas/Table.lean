/-!
# Tables

Values under text keys, kept in the order of the keys. Writing a key again replaces its value.
-/

namespace GoAtlas
namespace Table

variable {α : Type}

def put (key : String) (value : α) : List (String × α) -> List (String × α)
  | [] => [(key, value)]
  | (k, v) :: rest =>
      if key < k then (key, value) :: (k, v) :: rest
      else if key == k then (key, value) :: rest
      else (k, v) :: put key value rest

/-- Every key comes before those that follow it, so no key is there twice. -/
def IsSorted (entries : List (String × α)) : Prop :=
  entries.Pairwise fun a b => a.1 < b.1

theorem mem_put {key : String} {value : α} {entries : List (String × α)}
    {entry : String × α} (h : entry ∈ put key value entries) :
    entry = (key, value) ∨ entry ∈ entries := by
  fun_induction put key value entries with
  | case1 => simpa using h
  | case2 k v rest hlt => simpa using h
  | case3 k v rest hlt heq =>
      rcases List.mem_cons.mp h with hhead | hrest
      · exact Or.inl hhead
      · exact Or.inr (List.mem_cons_of_mem _ hrest)
  | case4 k v rest hlt hne ih =>
      rcases List.mem_cons.mp h with hhead | hrest
      · exact Or.inr (hhead ▸ List.mem_cons_self)
      · exact (ih hrest).imp_right (List.mem_cons_of_mem _)

theorem isSorted_put (key : String) (value : α) {entries : List (String × α)}
    (h : IsSorted entries) : IsSorted (put key value entries) := by
  unfold IsSorted at h ⊢
  fun_induction put key value entries with
  | case1 => exact List.pairwise_singleton _ _
  | case2 k v rest hlt =>
      refine List.Pairwise.cons ?_ h
      intro entry hentry
      rcases List.mem_cons.mp hentry with hhead | hrest
      · rw [hhead]
        exact hlt
      · exact String.lt_trans hlt ((List.pairwise_cons.mp h).1 entry hrest)
  | case3 k v rest hlt heq =>
      have hkey : key = k := by simpa using heq
      rw [hkey]
      exact List.Pairwise.cons (List.pairwise_cons.mp h).1 (List.pairwise_cons.mp h).2
  | case4 k v rest hlt hne ih =>
      have hk : k < key := by
        have hle : k ≤ key := String.not_lt.mp hlt
        apply Classical.byContradiction
        intro hnot
        have hkey : key = k := String.le_antisymm (String.not_lt.mp hnot) hle
        exact hne (by simp [hkey])
      refine List.Pairwise.cons ?_ (ih (List.pairwise_cons.mp h).2)
      intro entry hentry
      rcases mem_put hentry with heq | hmem
      · rw [heq]
        exact hk
      · exact (List.pairwise_cons.mp h).1 entry hmem

end Table

structure Table (α : Type) where
  entries : List (String × α)
  sorted : Table.IsSorted entries

namespace Table

variable {α : Type}

def empty : Table α := ⟨[], List.Pairwise.nil⟩

instance : Inhabited (Table α) := ⟨empty⟩

def insert (t : Table α) (key : String) (value : α) : Table α :=
  ⟨put key value t.entries, isSorted_put key value t.sorted⟩

def get? (t : Table α) (key : String) : Option α :=
  t.entries.lookup key

def contains (t : Table α) (key : String) : Bool :=
  (t.get? key).isSome

def keys (t : Table α) : List String :=
  t.entries.map (·.1)

def values (t : Table α) : List α :=
  t.entries.map (·.2)

def size (t : Table α) : Nat :=
  t.entries.length

def isEmpty (t : Table α) : Bool :=
  t.entries.isEmpty

def insertNew (t : Table α) (key : String) (value : α) : Table α :=
  if t.contains key then t else t.insert key value

def ofList (pairs : List (String × α)) : Table α :=
  pairs.foldl (fun t p => t.insert p.1 p.2) empty

def addNew (t new : Table α) : Table α :=
  new.entries.foldl (fun t p => t.insertNew p.1 p.2) t

end Table
end GoAtlas
