import GoAtlas.Proofs.Check.Items

/-!
# What the first pass collects

Each part of a collection is changed by few kinds of items.  Imports that were listed are in the
table of packages, a package that could not be imported comes with a hard complaint, and the
types of the scope are those that the package declares.
-/

namespace GoAtlas

namespace Item

def path? : Item -> Option String
  | binding _ _ _ path => some path
  | _ => none

/-- What every item of a package keeps holds after all of them. -/
theorem applyAll_induction {answers : Answers} {P : Collection -> Prop} {items : List Item}
    {c : Collection} (hstart : P c)
    (hstep : forall i c, i ∈ items -> P c -> P (i.apply answers c)) :
    P (applyAll answers items c) := by
  induction items generalizing c with
  | nil => exact hstart
  | cons i rest ih =>
      exact ih (hstep i c List.mem_cons_self hstart)
        fun j c hj => hstep j c (List.mem_cons_of_mem _ hj)

end Item

def LoadedPackage.writtenImports (p : LoadedPackage) : List String :=
  p.items.filterMap Item.path?

namespace Collection

/-!
# Parts of a collection
-/

section Parts

variable (answers : Answers) (c : Collection) (file path : String) (line : Nat)

@[simp] theorem scope_updateScope (f : Scope -> Scope) :
    (c.updateScope f).scope = f c.scope := rfl

@[simp] theorem scope_learn : (c.learn answers file line path).scope = c.scope := by
  unfold learn
  split
  · rfl
  · rfl

theorem scope_bound : (c.bound answers file line path).scope =
    { c.scope with importPaths := c.scope.importPaths ++ [path] } := by
  unfold bound
  split
  · rfl
  · rw [scope_updateScope, scope_learn]

theorem addBinding_spec (label : Option Source.ImportLabel) (b : Binding) :
    (c.addBinding file label b line).ledger = c.ledger ∧
      exists files, (c.addBinding file label b line).scope = { c.scope with files := files } := by
  unfold addBinding
  split
  · exact ⟨rfl, _, rfl⟩
  · exact ⟨rfl, c.scope.files, rfl⟩
  · exact ⟨rfl, _, rfl⟩
  · exact ⟨rfl, _, rfl⟩

theorem importPaths_addClaim (name : String) (what : Claim) (s : Scope) :
    (addClaim file name what s).importPaths = s.importPaths := by
  cases what with
  | type spec => rfl
  | const spec type expr iota => rfl
  | other => rfl

end Parts

/-!
# Imports
-/

/-- What the table of packages and the complaints tell about the imports that were listed. -/
structure Informed (answers : Answers) (c : Collection) : Prop where
  listed : forall q, q ∈ c.scope.importPaths ->
    q = "unsafe" ∨ exists known, c.packages.get? q = some known
  written : forall q known, c.packages.get? q = some known ->
    q ∈ c.scope.importPaths ∧ q ≠ "unsafe"
  faults : forall q known cause, c.packages.get? q = some known -> answers q = .error cause ->
    exists e, e ∈ c.errors ∧ e.complaint = .failedImport q cause ∧ e.isSoft = false

namespace Informed

variable {answers : Answers}

theorem congr {c d : Collection} (h : Informed answers c)
    (hpaths : d.scope.importPaths = c.scope.importPaths) (hpackages : d.packages = c.packages)
    (herrors : c.errors <+: d.errors) : Informed answers d where
  listed := by
    rw [hpaths, hpackages]
    exact h.listed
  written := by
    rw [hpaths, hpackages]
    exact h.written
  faults q known cause hknown hcause := by
    rw [hpackages] at hknown
    rcases h.faults q known cause hknown hcause with ⟨e, he, hfault⟩
    exact ⟨e, herrors.subset he, hfault⟩

theorem bound_unsafe {c : Collection} (h : Informed answers c) {file path : String} {line : Nat}
    (hpath : path = "unsafe") : Informed answers (c.bound answers file line path) := by
  have heq : c.bound answers file line path = c.updateScope fun s =>
      { s with importPaths := s.importPaths ++ [path] } := by
    unfold bound
    rw [if_pos (beq_iff_eq.mpr hpath)]
  rw [heq]
  constructor
  · intro q hq
    rcases List.mem_append.mp hq with hold | hnew
    · exact h.listed q hold
    · exact Or.inl ((List.mem_singleton.mp hnew).trans hpath)
  · intro q known hknown
    rcases h.written q known hknown with ⟨hmem, hne⟩
    exact ⟨List.mem_append_left _ hmem, hne⟩
  · exact h.faults

theorem learn {c : Collection} (h : Informed answers c) (file : String) (line : Nat)
    {path : String} (hpath : path ≠ "unsafe") :
    Informed answers ((c.learn answers file line path).updateScope fun s =>
      { s with importPaths := s.importPaths ++ [path] }) := by
  unfold Collection.learn
  cases hold : c.packages.get? path with
  | some known =>
      constructor
      · intro q hq
        rcases List.mem_append.mp hq with hmem | hnew
        · exact h.listed q hmem
        · exact Or.inr ⟨known, List.mem_singleton.mp hnew ▸ hold⟩
      · intro q known hknown
        rcases h.written q known hknown with ⟨hmem, hne⟩
        exact ⟨List.mem_append_left _ hmem, hne⟩
      · exact h.faults
  | none =>
      constructor
      · intro q hq
        rcases List.mem_append.mp hq with hmem | hnew
        · rcases h.listed q hmem with hunsafe | ⟨known, hknown⟩
          · exact Or.inl hunsafe
          · refine Or.inr ⟨known, ?_⟩
            have hne : q ≠ path := by
              intro heq
              cases (heq ▸ hknown).symm.trans hold
            exact (Table.get?_insert_of_ne _ _ hne).trans hknown
        · rw [List.mem_singleton.mp hnew]
          exact Or.inr ⟨_, Table.get?_insert_self _ _ _⟩
      · refine Table.forall_get?_insert
          (P := fun q _ => q ∈ c.scope.importPaths ++ [path] ∧ q ≠ "unsafe") ?_ ?_
        · intro q known hknown
          rcases h.written q known hknown with ⟨hmem, hne⟩
          exact ⟨List.mem_append_left _ hmem, hne⟩
        · exact ⟨List.mem_append_right _ List.mem_cons_self, hpath⟩
      · intro q known cause hknown
        revert q known
        refine Table.forall_get?_insert (P := fun q _ => answers q = .error cause ->
          exists e, e ∈ c.errors ++ Collect.importFaults file line path (answers path) ∧
            e.complaint = .failedImport q cause ∧ e.isSoft = false) ?_ ?_
        · intro q known hknown hcause
          rcases h.faults q known cause hknown hcause with ⟨e, he, hfault⟩
          exact ⟨e, List.mem_append_left _ he, hfault⟩
        · intro hcause
          rw [hcause]
          exact ⟨_, List.mem_append_right _ List.mem_cons_self, rfl, rfl⟩

theorem apply {c : Collection} (h : Informed answers c) (i : Item) :
    Informed answers (i.apply answers c) := by
  cases i with
  | opening file qualifiers => exact h.congr rfl rfl (List.prefix_refl _)
  | binding file line label path =>
      have hbound : Informed answers (c.bound answers file line path) := by
        by_cases hpath : path = "unsafe"
        · exact h.bound_unsafe hpath
        · unfold Collection.bound
          rw [if_neg fun heq => hpath (beq_iff_eq.mp heq)]
          exact h.learn file line hpath
      rcases (c.bound answers file line path).addBinding_spec file line label
        (c.bindingOf answers path) with ⟨hledger, files, hscope⟩
      refine hbound.congr ?_ (congrArg Ledger.packages hledger) ?_
      · exact (congrArg Scope.importPaths hscope :)
      · have herrors : (Item.apply answers (.binding file line label path) c).errors =
            (c.bound answers file line path).errors := congrArg Ledger.errors hledger
        exact herrors ▸ List.prefix_refl _
  | fault file line complaint => exact h.congr rfl rfl (List.prefix_append _ _)
  | claim file x what =>
      simp only [Item.apply]
      split
      · exact h
      · split
        · exact h.congr rfl rfl (List.prefix_append _ _)
        · exact h.congr (importPaths_addClaim file x.text what c.scope) rfl (List.prefix_refl _)
  | method m => exact h.congr rfl rfl (List.prefix_refl _)

end Informed

theorem informed_collect (p : LoadedPackage) (answers : Answers) :
    Informed answers ((collect p).under answers) := by
  rw [under_collect_eq]
  refine Item.applyAll_induction ?_ fun i c _ h => h.apply i
  exact
    { listed := fun _ h => absurd h List.not_mem_nil
      written := fun _ _ h => by cases h
      faults := fun _ _ _ h => by cases h }

theorem importPaths_apply (answers : Answers) (i : Item) (c : Collection) :
    (i.apply answers c).scope.importPaths = c.scope.importPaths ++ i.path?.toList := by
  cases i with
  | opening file qualifiers => exact (List.append_nil _).symm
  | binding file line label path =>
      rcases (c.bound answers file line path).addBinding_spec file line label
        (c.bindingOf answers path) with ⟨_, files, hscope⟩
      refine (congrArg Scope.importPaths hscope :).trans ?_
      rw [scope_bound]
      rfl
  | fault file line complaint => exact (List.append_nil _).symm
  | claim file x what =>
      refine Eq.trans ?_ (List.append_nil _).symm
      simp only [Item.apply]
      split
      · rfl
      · split
        · rfl
        · exact importPaths_addClaim file x.text what c.scope
  | method m => exact (List.append_nil _).symm

theorem importPaths_applyAll (answers : Answers) (items : List Item) (c : Collection) :
    (Item.applyAll answers items c).scope.importPaths =
      c.scope.importPaths ++ items.filterMap Item.path? := by
  induction items generalizing c with
  | nil => exact (List.append_nil _).symm
  | cons i rest ih =>
      refine (ih (i.apply answers c)).trans ?_
      rw [importPaths_apply, List.append_assoc, List.filterMap_cons]
      cases i.path? with
      | none => rfl
      | some path => rfl

theorem importPaths_collect (p : LoadedPackage) (answers : Answers) :
    ((collect p).under answers).scope.importPaths = p.writtenImports := by
  rw [under_collect_eq, importPaths_applyAll]
  rfl

theorem mem_writtenImports_of_asked {p : LoadedPackage} {answers : Answers} {q : String}
    (h : q ∈ (collect p).asked answers) : q ∈ p.writtenImports ∧ q ≠ "unsafe" := by
  have htold := (moves_collect p answers).told q h
  rw [← importPaths_collect p answers]
  exact (informed_collect p answers).written q _ htold

/-!
# Types
-/

def Declares (items : List Item) (s : Scope) : Prop :=
  forall name d, s.types.get? name = some d ->
    exists x, Item.claim d.file x (.type d.spec) ∈ items ∧ x.text = name

theorem declares_apply {answers : Answers} {items : List Item} {i : Item} {c : Collection}
    (hi : i ∈ items) (h : Declares items c.scope) : Declares items (i.apply answers c).scope := by
  cases i with
  | opening file qualifiers => exact h
  | binding file line label path =>
      rcases (c.bound answers file line path).addBinding_spec file line label
        (c.bindingOf answers path) with ⟨_, files, hscope⟩
      have htypes : (Item.apply answers (.binding file line label path) c).scope.types =
          c.scope.types := by
        refine (congrArg Scope.types hscope :).trans ?_
        rw [scope_bound]
      unfold Declares
      rw [htypes]
      exact h
  | fault file line complaint => exact h
  | claim file x what =>
      simp only [Item.apply]
      split
      · exact h
      · split
        · exact h
        · cases what with
          | type spec => exact Table.forall_get?_insert h ⟨x, hi, rfl⟩
          | const spec type expr iota => exact h
          | other => exact h
  | method m => exact h

theorem declares_collect (p : LoadedPackage) (answers : Answers) :
    Declares p.items ((collect p).under answers).scope := by
  rw [under_collect_eq]
  refine Item.applyAll_induction (P := fun c => Declares p.items c.scope) ?_
    fun i c hi h => declares_apply hi h
  intro name d hd
  cases hd

theorem path_applyAll (answers : Answers) (items : List Item) (c : Collection) :
    (Item.applyAll answers items c).scope.path = c.scope.path := by
  refine Item.applyAll_induction (P := fun d => d.scope.path = c.scope.path) rfl ?_
  intro i d _ h
  cases i with
  | opening file qualifiers => exact h
  | binding file line label path =>
      rcases (d.bound answers file line path).addBinding_spec file line label
        (d.bindingOf answers path) with ⟨_, files, hscope⟩
      refine (congrArg Scope.path hscope :).trans ?_
      rw [scope_bound]
      exact h
  | fault file line complaint => exact h
  | claim file x what =>
      simp only [Item.apply]
      split
      · exact h
      · split
        · exact h
        · cases what with
          | type spec => exact h
          | const spec type expr iota => exact h
          | other => exact h
  | method m => exact h

theorem path_collect (p : LoadedPackage) (answers : Answers) :
    ((collect p).under answers).scope.path = p.importPath := by
  rw [under_collect_eq, path_applyAll]
  rfl

end Collection
end GoAtlas
