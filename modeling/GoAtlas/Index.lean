import GoAtlas.Definition
import GoAtlas.Error
import GoAtlas.Table

/-!
# The object index

All definitions of the resolved packages under their full names. A package's definitions are
merged all at once or not at all.
-/

namespace GoAtlas

structure Index where
  table : Table TypeDef

namespace Index

def empty : Index := ⟨Table.empty⟩

def get? (i : Index) (name : TypeName) : Option TypeDef :=
  i.table.get? name.full

def contains (i : Index) (name : TypeName) : Bool :=
  i.table.contains name.full

def definitions (i : Index) : List TypeDef :=
  i.table.values

def size (i : Index) : Nat := i.table.size

def package (i : Index) (path : String) : List TypeDef :=
  i.definitions.filter fun d => d.name.packagePath == path

/-- The first definition of a batch that does not belong to the package or whose name is
taken, by the index or earlier in the batch. -/
def firstFault? (i : Index) (path : String) (seen : List String) :
    List TypeDef -> Option Error
  | [] => none
  | d :: rest =>
      if d.name.packagePath != path then
        some (.invariant ("foreign object " ++ d.name.full ++ " in batch for " ++ path))
      else if i.contains d.name || seen.contains d.name.full then
        some (.invariant ("double-up: " ++ d.name.full))
      else firstFault? i path (d.name.full :: seen) rest

def insertAll (i : Index) (defs : List TypeDef) : Index :=
  ⟨defs.foldl (fun t d => t.insert d.name.full d) i.table⟩

def merge (i : Index) (path : String) (defs : List TypeDef) : Except Error Index :=
  match firstFault? i path [] defs with
  | some e => .error e
  | none => .ok (i.insertAll defs)

end Index
end GoAtlas
