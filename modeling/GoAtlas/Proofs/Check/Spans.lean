import GoAtlas.Proofs.Check.Accounting
import GoAtlas.Proofs.Check.Outcome
import GoAtlas.Proofs.Source.TypePlaces

/-!
# Where definitions stand

Each type that a check finds has the place of the declaration that claims its name: a file of the
package that was read when the package was loaded, and the bytes of the declaration in it.
-/

namespace GoAtlas

/-- The definition is that of a type declaration, and its span is where the declaration stands in
a file of the package. -/
structure LoadedPackage.Declares (p : LoadedPackage) (file : String) (source : SourceFile)
    (spec : Source.TypeSpec) (d : TypeDef) : Prop where
  /-- Of the declarations of the name it is the first. -/
  first : ⟨file, spec.name, .type spec⟩ ∈ p.claimed
  listed : file ∈ p.files
  read : p.source? file = some source
  written : exists specs, .types specs ∈ source.file.decls ∧ spec ∈ specs
  name : d.name = .declared p.importPath spec.name.text
  isAlias : d.isAlias = spec.isAlias
  span : d.span = some (Scope.spanOf file spec.extent)
  /-- The declaration is a run of bytes of the file. -/
  bytes : Source.Spans source.bytes spec

/-!
# Declarations in files
-/

namespace Item

theorem type_of_mem_ofDecl {file other : String} {d : Source.Decl} {x : Source.Extent}
    {spec : Source.TypeSpec} (h : claim other x (.type spec) ∈ ofDecl file d) :
    other = file ∧ x = spec.name ∧ exists specs, d = .types specs ∧ spec ∈ specs := by
  obtain ⟨specs, rfl, hspec, rfl⟩ := mem_types_of_mem_ofDecl h
  obtain ⟨_, _, heq⟩ := List.mem_map.mp h
  injection heq with hfile
  exact ⟨hfile.symm, rfl, specs, rfl, hspec⟩

end Item

namespace LoadedPackage

variable {p : LoadedPackage}

theorem written_of_claimed {d : TopDeclaration} {spec : Source.TypeSpec} (h : d ∈ p.claimed)
    (hspec : d.what = .type spec) :
    d.name = spec.name ∧ d.file ∈ p.files ∧ exists source, p.source? d.file = some source ∧
      exists specs, .types specs ∈ source.file.decls ∧ spec ∈ specs := by
  have hitem := mem_items_of_claimed h
  rw [hspec] at hitem
  obtain ⟨f, hf, hmem⟩ := List.mem_flatMap.mp hitem
  obtain ⟨hlisted, source, hsource, hfile⟩ := mem_checkedFiles hf
  unfold Item.ofFile at hmem
  rcases List.mem_cons.mp hmem with heq | hdecls
  · cases heq
  · obtain ⟨decl, hdecl, hclaim⟩ := List.mem_flatMap.mp hdecls
    obtain ⟨hsame, hname, specs, rfl, hspecs⟩ := Item.type_of_mem_ofDecl hclaim
    rw [hsame]
    rw [← hfile] at hdecl
    exact ⟨hname, hlisted, source, hsource, specs, hdecl, hspecs⟩

end LoadedPackage

/-!
# Definitions
-/

namespace Scope

theorem place_typeDef (answers : Answers) (sc : Scope) (methods : Table (List Method))
    (name : String) (d : TypeDecl) (s : Progress) :
    let found := (((sc.typeDef methods name d).run s).under answers).1
    (found.name, found.isAlias, found.span) =
      (.declared sc.path name, d.spec.isAlias, some (spanOf d.file d.spec.extent)) := by
  unfold typeDef
  dsimp only
  split
  next halias =>
    rw [StateT.run_bind, Inquiry.under_bind, halias]
    rfl
  next halias =>
    rw [StateT.run_bind, Inquiry.under_bind, Bool.not_eq_true _ |>.mp halias]
    rfl

theorem places_definitions (answers : Answers) (sc : Scope) (name : String) (s : Progress) :
    (((sc.definitions name).run s).under answers).1.types.map
        (fun d => (d.name, d.isAlias, d.span)) =
      sc.types.entries.map fun e =>
        (.declared sc.path e.1, e.2.spec.isAlias, some (spanOf e.2.file e.2.spec.extent)) := by
  unfold definitions
  simp only [StateT.run_bind, Inquiry.under_bind]
  exact map_under_mapM answers (fun e s => place_typeDef answers sc _ e.1 e.2 s) sc.types.entries _

end Scope

section Checks

variable {t : FileTree} {tests : Bool} {dir : Path} {path : String} {p : LoadedPackage}
  (answers : Answers)

theorem place_of_mem_types {d : TypeDef} (hd : d ∈ ((checkGo p).under answers).package.types) :
    exists x spec, x ∈ p.claimed ∧ x.what = .type spec ∧ d.name = .declared p.importPath x.key ∧
      d.isAlias = spec.isAlias ∧ d.span = some (Scope.spanOf x.file spec.extent) := by
  have hplaces := Scope.places_definitions answers ((collect p).under answers).scope p.name
    ((collect p).under answers).progress
  rw [under_checkGo] at hd
  have hplace := List.mem_map_of_mem (f := fun d => (d.name, d.isAlias, d.span)) hd
  rw [show List.map _ (definedUnder answers p).1.types = _ from hplaces,
    Collection.path_collect] at hplace
  obtain ⟨⟨key, decl⟩, hentry, heq⟩ := List.mem_map.mp hplace
  obtain ⟨x, hx, hkey, htype⟩ := (get?_types_collect p answers).mp (Table.mem_entries_iff.mp hentry)
  unfold TopDeclaration.type? at htype
  split at htype
  next spec hspec =>
    cases htype
    simp only [Prod.mk.injEq] at heq
    obtain ⟨hname, halias, hspan⟩ := heq
    rw [← hkey] at hname
    exact ⟨x, spec, hx, hspec, hname.symm, halias.symm, hspan.symm⟩
  · cases htype

theorem declares_of_mem_types (hload : Loading.load t tests dir path = .ok p) {d : TypeDef}
    (hd : d ∈ ((checkGo p).under answers).package.types) :
    exists file source spec, p.Declares file source spec d := by
  obtain ⟨x, spec, hx, hspec, hname, halias, hspan⟩ := place_of_mem_types answers hd
  obtain ⟨hsame, hlisted, source, hsource, specs, hdecl, hmem⟩ :=
    LoadedPackage.written_of_claimed hx hspec
  have hread := Loading.read_of_load hload (Table.mem_of_lookup hsource)
  refine ⟨x.file, source, spec, ?_, hlisted, hsource, ⟨specs, hdecl, hmem⟩, ?_, halias, hspan, ?_⟩
  · rw [← hsame, ← hspec]
    exact hx
  · rw [hname]
    exact congrArg (fun x : Source.Extent => TypeName.declared p.importPath x.text) hsame
  · exact Source.File.spans_of_read hread hdecl specs rfl spec hmem

end Checks
end GoAtlas
