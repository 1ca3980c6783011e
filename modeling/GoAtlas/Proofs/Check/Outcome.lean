import GoAtlas.Proofs.Check.Collected
import GoAtlas.Proofs.Check.Once
import GoAtlas.Proofs.Index
import GoAtlas.Proofs.Source.Names

/-!
# The outcome of a check

What can be read off the sources of a package without following them: the imports and the names
of the types that its check ends with, and a hard complaint for every import that fails.  The
names have no dot and no two of them are equal, so an index that has nothing of the package
accepts them.
-/

namespace GoAtlas

/-!
# Results of passes over lists
-/

section Lists

variable {σ α β γ : Type}

theorem map_under_mapM (answers : Answers) {f : α -> StateT σ (Inquiry String) β} {g : β -> γ}
    {h : α -> γ}
    (hf : forall a s, g (((f a).run s).under answers).1 = h a) (items : List α) (s : σ) :
    ((((items.mapM f).run s).under answers).1.map g) = items.map h := by
  induction items generalizing s with
  | nil => rfl
  | cons a rest ih =>
      rw [List.mapM_cons, StateT.run_bind, Inquiry.under_bind, StateT.run_bind,
        Inquiry.under_bind]
      exact congrArg₂ List.cons (hf a s) (ih _)

end Lists

namespace Scope

theorem name_typeDef (answers : Answers) (sc : Scope) (methods : Table (List Method))
    (name : String) (d : TypeDecl) (s : Progress) :
    (((sc.typeDef methods name d).run s).under answers).1.name = .declared sc.path name := by
  unfold typeDef
  dsimp only
  split
  · rw [StateT.run_bind, Inquiry.under_bind]
    rfl
  · rw [StateT.run_bind, Inquiry.under_bind]
    rfl

/-- The package that the second pass ends with lists the imports of the scope and names the
types that the scope declares. -/
theorem definitions_spec (answers : Answers) (sc : Scope) (name : String) (s : Progress) :
    (((sc.definitions name).run s).under answers).1.imports = sc.importList ∧
      (((sc.definitions name).run s).under answers).1.types.map (fun d => d.name) =
        sc.types.keys.map fun key => TypeName.declared sc.path key := by
  unfold definitions
  simp only [StateT.run_bind, Inquiry.under_bind]
  refine ⟨rfl, ?_⟩
  refine Eq.trans (map_under_mapM answers (h := fun entry : String × TypeDecl =>
    TypeName.declared sc.path entry.1) ?_ sc.types.entries _) ?_
  · intro entry s
    exact name_typeDef answers sc _ entry.1 entry.2 s
  · unfold Table.keys
    rw [List.map_map]
    rfl

theorem mem_importList {sc : Scope} {q : String} : q ∈ sc.importList ↔ q ∈ sc.importPaths := by
  unfold importList
  rw [List.mem_eraseDups, List.mem_mergeSort]

end Scope

/-!
# Imports
-/

section Imports

variable {p : LoadedPackage} {answers : Answers} {q : String}

theorem mem_imports_checkGo :
    q ∈ ((checkGo p).under answers).package.imports ↔ q ∈ p.writtenImports := by
  have hspec := Scope.definitions_spec answers ((collect p).under answers).scope p.name
    ((collect p).under answers).progress
  rw [under_checkGo, show (definedUnder answers p).1.imports = _ from hspec.1,
    Scope.mem_importList, Collection.importPaths_collect]

theorem asked_collect_subset (h : q ∈ (collect p).asked answers) :
    q ∈ (checkGo p).asked answers := by
  rw [checkGo_eq, Inquiry.asked_bind]
  exact List.mem_append_left _ h

theorem asked_of_mem_imports (h : q ∈ p.writtenImports) (hq : q ≠ "unsafe") :
    q ∈ (collect p).asked answers := by
  rw [← Collection.importPaths_collect p answers] at h
  rcases (Collection.informed_collect p answers).listed q h with hunsafe | ⟨known, hknown⟩
  · exact absurd hunsafe hq
  · by_contra hasked
    have hkept := (moves_collect p answers).kept q hasked
    cases hkept.symm.trans hknown

theorem complaint_of_failed_import {cause : Error} (h : q ∈ p.writtenImports)
    (hq : q ≠ "unsafe") (hcause : answers q = .error cause) :
    exists e, e ∈ ((checkGo p).under answers).errors ∧ e.complaint = .failedImport q cause ∧
      e.isSoft = false := by
  have htold := (moves_collect p answers).told q (asked_of_mem_imports h hq)
  rcases (Collection.informed_collect p answers).faults q _ cause htold hcause with
    ⟨e, he, hfault⟩
  have hkept := (((collect p).under answers).scope.steady_definitions p.name answers
    ((collect p).under answers).progress).errors
  refine ⟨e, ?_, hfault⟩
  rw [under_checkGo]
  exact hkept.subset he

end Imports

/-!
# Types
-/

namespace Item

theorem mem_types_of_mem_ofDecl {file other : String} {d : Source.Decl} {x : Source.Extent}
    {spec : Source.TypeSpec} (h : claim other x (.type spec) ∈ ofDecl file d) :
    exists specs, d = .types specs ∧ spec ∈ specs ∧ x = spec.name := by
  cases ofDecl_of_mem h with
  | type hspec => exact ⟨_, rfl, hspec, rfl⟩
  | const hi => cases ofConsts_of_mem hi

end Item

section Types

variable {t : FileTree} {tests : Bool} {dir : Path} {path : String} {p : LoadedPackage}

theorem LoadedPackage.mem_checkedFiles {f : String × Source.File} (h : f ∈ p.checkedFiles) :
    f.1 ∈ p.files ∧ exists source, p.source? f.1 = some source ∧ source.file = f.2 := by
  unfold checkedFiles at h
  obtain ⟨file, hfile, hbind⟩ := List.mem_filterMap.mp h
  obtain ⟨source, hsource, hif⟩ := Option.bind_eq_some_iff.mp hbind
  split at hif
  · cases hif
  · cases hif
    exact ⟨hfile, source, hsource, rfl⟩

theorem read_of_mem_checkedFiles (h : Loading.load t tests dir path = .ok p)
    {f : String × Source.File} (hf : f ∈ p.checkedFiles) :
    exists bytes, Source.File.read bytes = .ok f.2 := by
  obtain ⟨_, source, hsource, hfile⟩ := LoadedPackage.mem_checkedFiles hf
  rw [← hfile]
  exact ⟨source.bytes, Loading.read_of_load h (Table.mem_of_lookup hsource)⟩

theorem spec_of_mem_items {P : Source.TypeSpec -> Prop}
    (hP : forall bytes f d, Source.File.read bytes = .ok f -> d ∈ f.decls ->
      Source.Grammar.EachType P d)
    (h : Loading.load t tests dir path = .ok p) {file : String} {x : Source.Extent}
    {spec : Source.TypeSpec} (hitem : Item.claim file x (.type spec) ∈ p.items) :
    P spec ∧ x = spec.name := by
  rcases List.mem_flatMap.mp hitem with ⟨f, hf, hmem⟩
  rcases read_of_mem_checkedFiles h hf with ⟨bytes, hread⟩
  unfold Item.ofFile at hmem
  rcases List.mem_cons.mp hmem with heq | hdecls
  · cases heq
  · rcases List.mem_flatMap.mp hdecls with ⟨d, hd, hdecl⟩
    rcases Item.mem_types_of_mem_ofDecl hdecl with ⟨specs, hspecs, hspec, rfl⟩
    exact ⟨hP bytes f.2 d hread hd specs hspecs spec hspec, rfl⟩

theorem plain_of_mem_items (h : Loading.load t tests dir path = .ok p) {file : String}
    {x : Source.Extent} {spec : Source.TypeSpec}
    (hitem : Item.claim file x (.type spec) ∈ p.items) : Source.Plain x.text := by
  rcases spec_of_mem_items (fun _ _ _ hread hd => Source.File.plainTypes_of_read hread hd) h
    hitem with ⟨hplain, rfl⟩
  exact hplain

variable (answers : Answers)

theorem names_checkGo (p : LoadedPackage) :
    ((checkGo p).under answers).package.types.map (fun d => d.name) =
      ((collect p).under answers).scope.types.keys.map fun key =>
        TypeName.declared p.importPath key := by
  have hspec := Scope.definitions_spec answers ((collect p).under answers).scope p.name
    ((collect p).under answers).progress
  rw [Collection.path_collect] at hspec
  rw [under_checkGo]
  exact hspec.2

theorem plain_of_mem_types (h : Loading.load t tests dir path = .ok p) {d : TypeDef}
    (hd : d ∈ ((checkGo p).under answers).package.types) :
    exists name, d.name = .declared p.importPath name ∧ Source.Plain name := by
  have hname : d.name ∈ ((checkGo p).under answers).package.types.map fun d => d.name :=
    List.mem_map_of_mem hd
  rw [names_checkGo] at hname
  rcases List.mem_map.mp hname with ⟨key, hkey, heq⟩
  rcases Table.mem_keys_iff.mp hkey with ⟨decl, hdecl⟩
  rcases Collection.declares_collect p answers key decl hdecl with ⟨x, hitem, rfl⟩
  exact ⟨x.text, heq.symm, plain_of_mem_items h hitem⟩

theorem nodup_fullNames (p : LoadedPackage) :
    (((checkGo p).under answers).package.types.map fun d => d.name.full).Nodup := by
  have hmap : (((checkGo p).under answers).package.types.map fun d => d.name.full) =
      (((collect p).under answers).scope.types.keys.map fun key =>
        (TypeName.declared p.importPath key).full) := by
    have hnames := congrArg (List.map TypeName.full) (names_checkGo answers p)
    rw [List.map_map, List.map_map] at hnames
    exact hnames
  rw [hmap]
  exact (Table.keys_nodup _).map fun _ _ hab => TypeName.eq_of_full_declared hab

/-- An index that knows no type of the package accepts what a check of it finds. -/
theorem accepts_checkGo (h : Loading.load t tests dir path = .ok p) {i : Index}
    (hi : forall name, Source.Plain name -> i.get? (.declared p.importPath name) = none) :
    i.Accepts p.importPath ((checkGo p).under answers).package.types where
  owned d hd := by
    rcases plain_of_mem_types answers h hd with ⟨name, hname, _⟩
    rw [hname]
    rfl
  fresh d hd := by
    rcases plain_of_mem_types answers h hd with ⟨name, hname, hplain⟩
    rw [hname]
    exact hi name hplain
  distinct := nodup_fullNames answers p

end Types
end GoAtlas
