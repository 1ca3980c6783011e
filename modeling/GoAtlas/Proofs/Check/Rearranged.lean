import GoAtlas.Proofs.Check.Faultless
import GoAtlas.Proofs.Check.Findings

/-!
# Rearranged packages

A package is rearranged when its files are taken in another order and declarations stand at other
places of their files.  Imports keep their order.  The items of a rearranged package are those
from before in another order, so its first pass has no complaint either and collects the same
declarations.
-/

namespace GoAtlas

namespace Source

def Decl.isImport : Decl -> Bool
  | .imports _ => true
  | _ => false

/-- The same file with other declarations than imports in any order. -/
structure File.Rearranged (f f' : File) : Prop where
  imports : List.Forall₂ Decl.Moved (f.decls.filter Decl.isImport) (f'.decls.filter Decl.isImport)
  others : Arranged Decl.Moved (f.decls.filter fun d => !d.isImport)
    (f'.decls.filter fun d => !d.isImport)

theorem File.Rearranged.decls {f f' : File} (h : f.Rearranged f') :
    Arranged Decl.Moved f.decls f'.decls :=
  (((Arranged.of_forall₂ h.imports).append h.others).perm_left
    (List.filter_append_perm _ _)).perm_right (List.filter_append_perm _ _)

end Source

structure SourceFile.Rearranged (s s' : SourceFile) : Prop where
  header : Source.isExcluded s'.bytes s'.file = Source.isExcluded s.bytes s.file
  file : s.file.Rearranged s'.file

namespace LoadedPackage

/-- The same package with its files and their declarations in another order. -/
structure Rearranged (p p' : LoadedPackage) : Prop where
  importPath : p'.importPath = p.importPath
  name : p'.name = p.name
  files : p'.files.Perm p.files
  sources : forall name, name ∈ p.files ->
    Option.Rel SourceFile.Rearranged (p.source? name) (p'.source? name)

theorem Rearranged.checkedFiles {p p' : LoadedPackage} (h : p.Rearranged p') :
    Arranged (fun f f' => f'.1 = f.1 ∧ f.2.Rearranged f'.2) p.checkedFiles p'.checkedFiles := by
  have hnames : Arranged (fun name name' => name = name' ∧ name ∈ p.files) p.files p'.files :=
    ⟨p'.files, h.files, List.forall₂_same.mpr fun name hname =>
      ⟨rfl, h.files.mem_iff.mp hname⟩⟩
  refine hnames.filterMap ?_
  rintro name _ ⟨rfl, hname⟩
  have hsources := h.sources name hname
  generalize p.source? name = s, p'.source? name = s' at hsources ⊢
  cases hsources with
  | none => exact .none
  | some hsource =>
      simp only [Option.bind_some, hsource.header]
      split
      · exact .none
      · exact .some ⟨rfl, hsource.file⟩

theorem eq_of_mem_checkedFiles {p : LoadedPackage} {name : String} {file other : Source.File}
    (h : (name, file) ∈ p.checkedFiles) (h' : (name, other) ∈ p.checkedFiles) : other = file := by
  have hread : forall {f : Source.File}, (name, f) ∈ p.checkedFiles ->
      (p.source? name).map SourceFile.file = some f := by
    intro f hf
    rcases List.mem_filterMap.mp hf with ⟨_, _, hbind⟩
    rcases Option.bind_eq_some_iff.mp hbind with ⟨source, hsource, hif⟩
    split at hif
    · cases hif
    · cases hif
      exact Option.map_eq_some_iff.mpr ⟨source, hsource, rfl⟩
  exact Option.some.inj ((hread h').symm.trans (hread h))

end LoadedPackage

/-!
# Moved items
-/

def Claim.relocate (f : Source.Extent -> Source.Extent) : Claim -> Claim
  | .type spec => .type (spec.relocate f)
  | .const spec declared expr iota =>
      .const (f spec) (declared.map (Source.TypeExpr.relocate f))
        (expr.map (Source.Expr.relocate f)) iota
  | .other => .other

namespace Item

inductive Moved : Item -> Item -> Prop where
  | opening (file : String) (qualifiers qualifiers' : List String) :
      Moved (.opening file qualifiers) (.opening file qualifiers')
  | binding {f : Source.Extent -> Source.Extent} (hf : Source.KeepsText f) (file : String)
      (line line' : Nat) (label : Option Source.ImportLabel) (path : String) :
      Moved (.binding file line label path)
        (.binding file line' (label.map (Source.ImportLabel.relocate f)) path)
  | fault (file : String) (line line' : Nat) (complaint : Complaint) :
      Moved (.fault file line complaint) (.fault file line' complaint)
  | claim {f : Source.Extent -> Source.Extent} (hf : Source.KeepsText f) (file : String)
      (x : Source.Extent) (what : Claim) :
      Moved (.claim file x what) (.claim file (f x) (what.relocate f))
  | method {f : Source.Extent -> Source.Extent} (hf : Source.KeepsText f) (m : MethodSource) :
      Moved (.method m) (.method (m.relocate f))

section Relocating

variable {f : Source.Extent -> Source.Extent} (hf : Source.KeepsText f) (file : String)

include hf

theorem moved_ofImport (spec : Source.ImportSpec) :
    List.Forall₂ Moved (ofImport file spec) (ofImport file (spec.relocate f)) := by
  have hpath : (spec.relocate f).path.text = spec.path.text := hf spec.path
  unfold ofImport
  rw [hpath]
  split
  · exact .cons (.fault _ _ _ _) .nil
  · exact .nil
  · exact .cons (.binding hf _ _ _ _ _) .nil

omit hf in
theorem moved_arityFaults (spec : Source.ConstSpec) (values : List Source.Expr) :
    List.Forall₂ Moved (arityFaults file spec values)
      (arityFaults file (spec.relocate f) (values.map (Source.Expr.relocate f))) := by
  have hnames : (spec.relocate f).names.length = spec.names.length := List.length_map f
  unfold arityFaults
  rw [hnames, List.length_map]
  split
  · exact .cons (.fault _ _ _ _) .nil
  · split
    · exact .cons (.fault _ _ _ _) .nil
    · exact .nil

theorem moved_ofConstNames (spec : Source.Extent) (type : Option Source.TypeExpr) (iota : Nat)
    (names : List Source.Extent) (values : List Source.Expr) :
    List.Forall₂ Moved (ofConstNames file spec type iota names values)
      (ofConstNames file (f spec) (type.map (Source.TypeExpr.relocate f)) iota (names.map f)
        (values.map (Source.Expr.relocate f))) := by
  induction names generalizing values with
  | nil => exact .nil
  | cons x names ih =>
      have hclaim := Moved.claim hf file x (.const spec type values.head? iota)
      rw [List.map_cons, ofConstNames, ofConstNames, List.head?_map, ← List.map_tail]
      exact .cons hclaim (ih values.tail)

end Relocating

def relocateLast (f : Source.Extent -> Source.Extent)
    (last : Option Source.TypeExpr × List Source.Expr) :
    Option Source.TypeExpr × List Source.Expr :=
  (last.1.map (Source.TypeExpr.relocate f), last.2.map (Source.Expr.relocate f))

theorem repeated_relocate (f : Source.Extent -> Source.Extent)
    (last : Option (Option Source.TypeExpr × List Source.Expr)) (spec : Source.ConstSpec) :
    Collect.repeated (last.map (relocateLast f)) (spec.relocate f) =
      relocateLast f (Collect.repeated last spec) := by
  rcases spec with ⟨x, names, type, values⟩
  cases values with
  | some values => rfl
  | none =>
      cases type with
      | some type => rfl
      | none =>
          cases last with
          | none => rfl
          | some last => rfl

theorem moved_ofConstSpecs {f : Source.Extent -> Source.Extent} (hf : Source.KeepsText f)
    (file : String) (last : Option (Option Source.TypeExpr × List Source.Expr)) (iota : Nat)
    (specs : List Source.ConstSpec) :
    List.Forall₂ Moved (ofConstSpecs file last iota specs)
      (ofConstSpecs file (last.map (relocateLast f)) iota
        (specs.map (Source.ConstSpec.relocate f))) := by
  induction specs generalizing last iota with
  | nil => exact .nil
  | cons spec rest ih =>
      rw [List.map_cons, ofConstSpecs, ofConstSpecs, repeated_relocate]
      dsimp only
      refine List.rel_append (List.rel_append (moved_arityFaults file spec _)
        (moved_ofConstNames hf file spec.extent _ iota spec.names _)) ?_
      rcases spec with ⟨x, names, type, values⟩
      cases values with
      | none => exact ih last (iota + 1)
      | some values => exact ih (some (type, values)) (iota + 1)

theorem moved_ofDecl {f : Source.Extent -> Source.Extent} (hf : Source.KeepsText f) (file : String)
    (d : Source.Decl) : List.Forall₂ Moved (ofDecl file d) (ofDecl file (d.relocate f)) := by
  cases d with
  | imports specs =>
      show List.Forall₂ Moved (specs.flatMap (ofImport file))
        ((specs.map (Source.ImportSpec.relocate f)).flatMap (ofImport file))
      induction specs with
      | nil => exact .nil
      | cons spec rest ih =>
          rw [List.map_cons, List.flatMap_cons, List.flatMap_cons]
          exact List.rel_append (moved_ofImport hf file spec) ih
  | types specs =>
      show List.Forall₂ Moved (specs.map fun spec => claim file spec.name (.type spec))
        ((specs.map (Source.TypeSpec.relocate f)).map fun spec =>
          claim file spec.name (.type spec))
      rw [List.map_map]
      exact List.forall₂_map_left_iff.mpr (List.forall₂_map_right_iff.mpr
        (List.forall₂_same.mpr fun spec _ => .claim hf file spec.name (.type spec)))
  | consts specs => exact moved_ofConstSpecs hf file none 0 specs
  | vars names =>
      show List.Forall₂ Moved (names.map fun x => claim file x .other)
        ((names.map f).map fun x => claim file x .other)
      rw [List.map_map]
      exact List.forall₂_map_left_iff.mpr (List.forall₂_map_right_iff.mpr
        (List.forall₂_same.mpr fun x _ => .claim hf file x .other))
  | func x =>
      simp only [Source.Decl.relocate, ofDecl, hf x]
      split
      · exact .nil
      · exact .cons (.claim hf file x .other) .nil
  | method d => exact .cons (.method hf ⟨file, d⟩) .nil
  | package clause name => exact .nil
  | statement => exact .nil

theorem arranged_ofFile {name : String} {file file' : Source.File} (h : file.Rearranged file') :
    Arranged Moved (ofFile (name, file)) (ofFile (name, file')) := by
  have hopening : Arranged Moved [opening name file.qualifiers] [opening name file'.qualifiers] :=
    .of_forall₂ (.cons (.opening _ _ _) .nil)
  refine hopening.append (Arranged.flatMap ?_ h.decls)
  rintro d _ ⟨f, hf, rfl⟩
  exact .of_forall₂ (moved_ofDecl hf name d)

end Item

theorem LoadedPackage.Rearranged.items {p p' : LoadedPackage} (h : p.Rearranged p') :
    Arranged Item.Moved p.items p'.items := by
  refine Arranged.flatMap ?_ h.checkedFiles
  rintro ⟨name, file⟩ ⟨name', file'⟩ ⟨hname, hfile⟩
  cases hname
  exact Item.arranged_ofFile hfile

namespace Item

variable {items items' : List Item}

theorem Moved.name? {i i' : Item} (h : Moved i i') : i'.name? = i.name? := by
  cases h with
  | claim hf file x what => rw [name?_claim, name?_claim, hf x]
  | _ => rfl

theorem Faultless.arranged {answers : Answers} (h : Faultless answers items)
    (hitems : Arranged Moved items items') : Faultless answers items' where
  sound file line complaint hmem := by
    rcases hitems.mem_left hmem with ⟨i, hi, hmoved⟩
    cases hmoved
    exact h.sound _ _ _ hi
  bound file line label path hmem := by
    rcases hitems.mem_left hmem with ⟨i, hi, hmoved⟩
    cases hmoved
    exact h.bound _ _ _ _ hi
  names := by
    have hnames : Arranged Eq (items.filterMap Item.name?) (items'.filterMap Item.name?) := by
      refine Arranged.filterMap ?_ hitems
      intro i i' hmoved
      rw [hmoved.name?]
      cases i.name? with
      | none => exact .none
      | some name => exact .some rfl
    exact hnames.perm_of_eq.nodup_iff.mp h.names

theorem Moved.type? {i i' : Item} (h : Moved i i') :
    Option.Rel (fun t t' => t'.1 = t.1 ∧ exists f, Source.KeepsText f ∧ t'.2 = t.2.relocate f)
      i.type? i'.type? := by
  cases h with
  | @claim f hf file x what =>
      cases what with
      | type spec =>
          simp only [Item.type?, Claim.relocate, hf x]
          split
          · exact .none
          · exact .some ⟨rfl, f, hf, rfl⟩
      | const spec type expr iota => exact .none
      | other => exact .none
  | _ => exact .none

theorem Moved.const? {i i' : Item} (h : Moved i i') :
    Option.Rel (fun d d' => exists f, Source.KeepsText f ∧ d' = ConstDecl.relocate f d)
      i.const? i'.const? := by
  cases h with
  | @claim f hf file x what =>
      cases what with
      | type spec => exact .none
      | const spec type expr iota =>
          simp only [Item.const?, Claim.relocate, hf x]
          split
          · exact .none
          · exact .some ⟨f, hf, rfl⟩
      | other => exact .none
  | _ => exact .none

theorem Moved.other? {i i' : Item} (h : Moved i i') : Option.Rel Eq i.other? i'.other? := by
  cases h with
  | @claim f hf file x what =>
      cases what with
      | type spec => exact .none
      | const spec type expr iota => exact .none
      | other =>
          simp only [Item.other?, Claim.relocate, hf x]
          split
          · exact .none
          · exact .some rfl
  | _ => exact .none

theorem Moved.method? {i i' : Item} (h : Moved i i') :
    Option.Rel MethodSource.Moved i.method? i'.method? := by
  cases h with
  | @method f hf m => exact .some ⟨f, hf, rfl⟩
  | _ => exact .none

end Item

/-!
# What files see
-/

namespace FileScope

/-- The same imports are visible, perhaps written down on other lines. -/
structure SameView (s s' : FileScope) : Prop where
  imports : s'.imports = s.imports
  dots : s'.dots = s.dots

theorem SameView.add {s s' : FileScope} (h : SameView s s') {f : Source.Extent -> Source.Extent}
    (hf : Source.KeepsText f) (label : Option Source.ImportLabel) (b : Binding)
    (line line' : Nat) :
    SameView (s.add label b line) (s'.add (label.map (Source.ImportLabel.relocate f)) b line') := by
  unfold FileScope.add
  cases label with
  | none =>
      refine ⟨?_, h.dots⟩
      show s'.imports.insert (Collect.defaultLabel b) b =
        s.imports.insert (Collect.defaultLabel b) b
      rw [h.imports]
  | some label =>
      cases label with
      | dot => exact ⟨h.imports, congrArg (· ++ [b]) h.dots⟩
      | blank => exact h
      | named x =>
          refine ⟨?_, h.dots⟩
          show s'.imports.insert (f x).text b = s.imports.insert x.text b
          rw [hf x, h.imports]

end FileScope

namespace Item

variable {answers : Answers} {file : String}

def seenAfter (answers : Answers) (file : String) (items : List Item) (s : FileScope) :
    FileScope :=
  items.foldl (shows answers file) s

theorem Moved.sameView {i i' : Item} (h : Moved i i') {s s' : FileScope}
    (hs : FileScope.SameView s s') :
    FileScope.SameView (i.shows answers file s) (i'.shows answers file s') := by
  cases h with
  | opening name qualifiers qualifiers' =>
      simp only [shows]
      split
      · exact ⟨rfl, rfl⟩
      · exact hs
  | binding hf name line line' label path =>
      simp only [shows]
      split
      · exact hs.add hf label _ line line'
      · exact hs
  | fault name line line' complaint => exact hs
  | claim hf name x what => exact hs
  | method hf m => exact hs

theorem sameView_seenAfter {items items' : List Item} (h : List.Forall₂ Moved items items')
    {s s' : FileScope} (hs : FileScope.SameView s s') :
    FileScope.SameView (seenAfter answers file items s) (seenAfter answers file items' s') := by
  induction h generalizing s s' with
  | nil => exact hs
  | cons hmoved _ ih => exact ih (hmoved.sameView hs)

theorem seenAfter_of_hidden {items : List Item}
    (h : forall i, i ∈ items -> forall s, i.shows answers file s = s) (s : FileScope) :
    seenAfter answers file items s = s := by
  induction items with
  | nil => rfl
  | cons i rest ih =>
      rw [List.forall_mem_cons] at h
      show seenAfter answers file rest (i.shows answers file s) = s
      rw [h.1 s]
      exact ih h.2

theorem seenAfter_append (front back : List Item) (s : FileScope) :
    seenAfter answers file (front ++ back) s =
      seenAfter answers file back (seenAfter answers file front s) :=
  List.foldl_append

theorem hidden_ofConstSpecs {name : String}
    {last : Option (Option Source.TypeExpr × List Source.Expr)} {iota : Nat}
    {specs : List Source.ConstSpec} {i : Item} (hi : i ∈ ofConstSpecs name last iota specs)
    (s : FileScope) : i.shows answers file s = s := by
  cases ofConsts_of_mem hi with
  | fault line complaint => rfl
  | claim x spec type expr iota => rfl

theorem hidden_ofDecl {name : String} {d : Source.Decl} (hd : d.isImport = false) {i : Item}
    (hi : i ∈ ofDecl name d) (s : FileScope) : i.shows answers file s = s := by
  cases ofDecl_of_mem hi with
  | malformed | binding => cases hd
  | const hspecs => exact hidden_ofConstSpecs hspecs s
  | type | var | func | method => rfl

theorem seenAfter_imports (name : String) (decls : List Source.Decl) (s : FileScope) :
    seenAfter answers file (decls.flatMap (ofDecl name)) s =
      seenAfter answers file ((decls.filter Source.Decl.isImport).flatMap (ofDecl name)) s := by
  induction decls generalizing s with
  | nil => rfl
  | cons d rest ih =>
      rw [List.flatMap_cons, seenAfter_append]
      by_cases hd : d.isImport = true
      · rw [List.filter_cons_of_pos hd, List.flatMap_cons, seenAfter_append]
        exact ih _
      · rw [List.filter_cons_of_neg hd,
          seenAfter_of_hidden fun i hi => hidden_ofDecl (eq_false_of_ne_true hd) hi]
        exact ih s

theorem seenAfter_ofFile_self (name : String) (source : Source.File) (s : FileScope) :
    seenAfter answers name (ofFile (name, source)) s =
      seenAfter answers name ((source.decls.filter Source.Decl.isImport).flatMap (ofDecl name))
        (FileScope.ofQualifiers source.qualifiers) := by
  rw [← seenAfter_imports]
  show seenAfter answers name _ (if name = name then _ else s) = _
  rw [if_pos rfl]

theorem seenAfter_ofFile_of_ne {name : String} (h : name ≠ file) (source : Source.File)
    (s : FileScope) : seenAfter answers file (ofFile (name, source)) s = s := by
  have hopening : (opening name source.qualifiers).shows answers file s = s := if_neg h
  show seenAfter answers file _ ((opening name source.qualifiers).shows answers file s) = s
  rw [hopening]
  apply seenAfter_of_hidden
  intro i hi t
  rcases List.mem_flatMap.mp hi with ⟨d, _, hi⟩
  cases ofDecl_of_mem hi with
  | malformed line => rfl
  | binding line label path => exact if_neg h
  | _ => exact hidden_ofDecl rfl hi t

theorem seenAfter_ofFiles_of_mem {files : List (String × Source.File)} {source : Source.File}
    (hmem : (file, source) ∈ files)
    (hsame : forall other, (file, other) ∈ files -> other = source) (s : FileScope) :
    seenAfter answers file (files.flatMap ofFile) s =
      seenAfter answers file ((source.decls.filter Source.Decl.isImport).flatMap (ofDecl file))
        (FileScope.ofQualifiers source.qualifiers) := by
  induction files using List.reverseRecOn with
  | nil => cases hmem
  | append_singleton files f ih =>
      rw [List.flatMap_append, seenAfter_append, List.flatMap_singleton]
      rcases f with ⟨name, other⟩
      by_cases hname : name = file
      · subst hname
        cases hsame other (List.mem_append_right _ List.mem_cons_self)
        exact seenAfter_ofFile_self name source _
      · rw [seenAfter_ofFile_of_ne hname]
        have hne : (file, source) ≠ (name, other) := fun h => hname (congrArg Prod.fst h).symm
        have hfront := (List.mem_append.mp hmem).resolve_right
          fun hlast => hne (List.mem_singleton.mp hlast)
        exact ih hfront fun other hother => hsame other (List.mem_append_left _ hother)

theorem seenAfter_ofFiles_of_not_mem {files : List (String × Source.File)}
    (hnone : forall f, f ∈ files -> f.1 ≠ file) (s : FileScope) :
    seenAfter answers file (files.flatMap ofFile) s = s := by
  induction files generalizing s with
  | nil => rfl
  | cons f rest ih =>
      rw [List.forall_mem_cons] at hnone
      rw [List.flatMap_cons, seenAfter_append, seenAfter_ofFile_of_ne hnone.1]
      exact ih hnone.2 s

/-- The same imports are visible in every file of a rearranged package. -/
theorem sameView_visible {p p' : LoadedPackage} (h : p.Rearranged p') (answers : Answers)
    (file : String) :
    FileScope.SameView (visible answers file p.items) (visible answers file p'.items) := by
  have hstart : forall qualifiers qualifiers', FileScope.SameView
      (FileScope.ofQualifiers qualifiers) (FileScope.ofQualifiers qualifiers') :=
    fun _ _ => ⟨rfl, rfl⟩
  show FileScope.SameView (seenAfter answers file (p.checkedFiles.flatMap ofFile) _)
    (seenAfter answers file (p'.checkedFiles.flatMap ofFile) _)
  by_cases hfile : exists f, f ∈ p.checkedFiles ∧ f.1 = file
  · rcases hfile with ⟨⟨_, source⟩, hmem, rfl⟩
    rcases h.checkedFiles.mem_right hmem with ⟨⟨_, source'⟩, hmem', rfl, hsource⟩
    rw [seenAfter_ofFiles_of_mem hmem fun _ => LoadedPackage.eq_of_mem_checkedFiles hmem,
      seenAfter_ofFiles_of_mem hmem' fun _ => LoadedPackage.eq_of_mem_checkedFiles hmem']
    refine sameView_seenAfter (List.rel_flatMap hsource.imports ?_) (hstart _ _)
    rintro d _ ⟨f, hf, rfl⟩
    exact moved_ofDecl hf _ d
  · have hnone : forall f, f ∈ p.checkedFiles -> f.1 ≠ file :=
      fun f hf hname => hfile ⟨f, hf, hname⟩
    have hnone' : forall f, f ∈ p'.checkedFiles -> f.1 ≠ file := by
      intro f' hf' hname
      rcases h.checkedFiles.mem_left hf' with ⟨f, hf, hsame, _⟩
      exact hnone f hf (hsame.symm.trans hname)
    rw [seenAfter_ofFiles_of_not_mem hnone, seenAfter_ofFiles_of_not_mem hnone']
    exact hstart _ _

end Item

end GoAtlas
