import GoAtlas.Package.Loaded
import GoAtlas.Proofs.Table
import Mathlib.Data.List.Pairwise
import Mathlib.Data.List.Sort

/-!
# Package files

The files of a package directory are those that are wanted, and among the names that they declare
the package is chosen: the one library, or `main` where there is none.
-/

namespace GoAtlas

namespace FileTree

def withFiles (t : FileTree) (more : List (Location × Text.Bytes)) : FileTree :=
  { t with files := t.files ++ more }

theorem isDirAt_withFiles {t : FileTree} {l : Location} (more : List (Location × Text.Bytes))
    (h : t.isDirAt l = true) : (t.withFiles more).isDirAt l = true := by
  simp only [isDirAt, withFiles, List.any_append, Bool.or_eq_true] at h ⊢
  rcases h with (hhere | hdir) | hfile
  · exact .inl (.inl hhere)
  · exact .inl (.inr hdir)
  · exact .inr (.inl hfile)

theorem follow_withFiles {t : FileTree} (more : List (Location × Text.Bytes)) {l m : Location}
    {components : List Component} (h : t.follow l components = some m) :
    (t.withFiles more).follow l components = some m := by
  induction components generalizing l with
  | nil => exact h
  | cons c rest ih =>
      simp only [follow] at h ⊢
      split at h
      next hdir =>
        rw [if_pos (isDirAt_withFiles more hdir)]
        cases c with
        | root => exact ih h
        | here => exact ih h
        | up => exact ih h
        | normal name => exact ih h
      · cases h

theorem locate?_withFiles {t : FileTree} (more : List (Location × Text.Bytes)) {p : Path}
    {l : Location} (h : t.locate? p = some l) : (t.withFiles more).locate? p = some l := by
  unfold locate? at h ⊢
  split at h
  · cases h
  next hne =>
    rw [if_neg hne]
    exact follow_withFiles more h

theorem isDir_iff {t : FileTree} {p : Path} :
    t.isDir p = true ↔ exists l, t.locate? p = some l ∧ t.isDirAt l = true := by
  unfold isDir
  cases t.locate? p with
  | none => simp
  | some l => simp

theorem isDir_withFiles {t : FileTree} (more : List (Location × Text.Bytes)) {p : Path}
    (h : t.isDir p = true) : (t.withFiles more).isDir p = true := by
  obtain ⟨l, hlocate, hdir⟩ := isDir_iff.mp h
  exact isDir_iff.mpr ⟨l, locate?_withFiles more hlocate, isDirAt_withFiles more hdir⟩

def nameAt? (l : Location) (f : Location × Text.Bytes) : Option (String × Text.Bytes) :=
  match f.1.getLast? with
  | some name => if f.1.dropLast == l then some (name, f.2) else none
  | none => none

theorem nameAt?_eq_some_iff {l : Location} {f : Location × Text.Bytes} {name : String}
    {bytes : Text.Bytes} : nameAt? l f = some (name, bytes) ↔ f = (l ++ [name], bytes) := by
  obtain ⟨location, contents⟩ := f
  unfold nameAt?
  rcases List.eq_nil_or_concat location with rfl | ⟨front, last, rfl⟩
  · simp
  · rw [List.concat_eq_append]
    constructor
    · intro h
      simp at h
      obtain ⟨rfl, rfl, rfl⟩ := h
      rfl
    · intro h
      obtain ⟨⟨rfl, rfl⟩, rfl⟩ : (front = l ∧ last = name) ∧ contents = bytes := by simpa using h
      simp

theorem filesIn_eq {t : FileTree} {p : Path} {l : Location} (h : t.locate? p = some l) :
    t.filesIn p = t.files.filterMap (nameAt? l) := by
  unfold filesIn
  rw [h]
  rfl

theorem mem_filesIn_iff {t : FileTree} {p : Path} {name : String} {bytes : Text.Bytes} :
    (name, bytes) ∈ t.filesIn p ↔
      exists l, t.locate? p = some l ∧ (l ++ [name], bytes) ∈ t.files := by
  cases hlocate : t.locate? p with
  | none => simp [filesIn, hlocate]
  | some l =>
      rw [filesIn_eq hlocate, List.mem_filterMap]
      simp only [nameAt?_eq_some_iff, Option.some.injEq, exists_eq_right, exists_eq_left']

/-- Files that stand at different places of the tree have different names in their
directory. -/
theorem nodup_filesIn {t : FileTree} (h : (t.files.map (·.1)).Nodup) (p : Path) :
    ((t.filesIn p).map (·.1)).Nodup := by
  cases hlocate : t.locate? p with
  | none => simp [filesIn, hlocate]
  | some l =>
      rw [filesIn_eq hlocate]
      unfold List.Nodup at h ⊢
      rw [List.pairwise_map] at h ⊢
      refine List.Pairwise.filterMap (nameAt? l) ?_ h
      rintro f g hne ⟨name, bytes⟩ hf ⟨other, contents⟩ hg rfl
      rw [nameAt?_eq_some_iff.mp hf, nameAt?_eq_some_iff.mp hg] at hne
      exact hne rfl

theorem filesIn_withFiles {t : FileTree} {more : List (Location × Text.Bytes)} {p : Path}
    {l : Location} (h : t.locate? p = some l) :
    (t.withFiles more).filesIn p = t.filesIn p ++ more.filterMap (nameAt? l) := by
  rw [filesIn_eq h, filesIn_eq (locate?_withFiles more h)]
  exact List.filterMap_append

end FileTree

namespace Loading

/-!
# Wanted files
-/

/-- A Go file that is not hidden, and a test file only where tests are asked for. -/
structure Wanted (tests : Bool) (name : String) : Prop where
  go : ".go".toList <:+ name.toList
  no_dot : ¬ ".".toList <+: name.toList
  no_underscore : ¬ "_".toList <+: name.toList
  no_test : tests = false -> ¬ "_test.go".toList <:+ name.toList

theorem isWanted_iff {tests : Bool} {name : String} :
    isWanted tests name = true ↔ Wanted tests name := by
  have hends : forall suffix, Text.endsWith name suffix = true ↔ suffix.toList <:+ name.toList :=
    fun suffix => List.isSuffixOf_iff_suffix
  have hstarts : forall start, Text.startsWith name start = true ↔ start.toList <+: name.toList :=
    fun start => List.isPrefixOf_iff_prefix
  simp only [isWanted, Bool.and_eq_true, Bool.or_eq_true, Bool.not_eq_true',
    ← Bool.not_eq_true, hends, hstarts]
  constructor
  · rintro ⟨⟨⟨hgo, hdot⟩, hunderscore⟩, htest⟩
    refine ⟨hgo, hdot, hunderscore, ?_⟩
    rintro rfl
    simpa using htest
  · rintro ⟨hgo, hdot, hunderscore, htest⟩
    refine ⟨⟨⟨hgo, hdot⟩, hunderscore⟩, ?_⟩
    cases tests with
    | false => exact .inr (htest rfl)
    | true => exact .inl rfl

/-- A wanted file that stands directly in a directory, with its contents. -/
structure Stands (t : FileTree) (tests : Bool) (dir : Path) (file : String)
    (bytes : Text.Bytes) : Prop where
  wanted : Wanted tests file
  placed : exists l, t.locate? dir = some l ∧ (l ++ [file], bytes) ∈ t.files

theorem mem_wantedFiles_iff {t : FileTree} {tests : Bool} {dir : Path} {file : String}
    {bytes : Text.Bytes} :
    (file, bytes) ∈ wantedFiles t tests dir ↔ Stands t tests dir file bytes := by
  unfold wantedFiles
  rw [List.mem_mergeSort, List.mem_filter, FileTree.mem_filesIn_iff, isWanted_iff]
  constructor
  · rintro ⟨hplaced, hwanted⟩
    exact ⟨hwanted, hplaced⟩
  · rintro ⟨hwanted, hplaced⟩
    exact ⟨hplaced, hwanted⟩

theorem pairwise_wantedFiles (t : FileTree) (tests : Bool) (dir : Path) :
    (wantedFiles t tests dir).Pairwise fun a b => a.1 ≤ b.1 := by
  have hsorted : (wantedFiles t tests dir).Pairwise fun a b => decide (a.1 ≤ b.1) = true := by
    apply List.pairwise_mergeSort
    · intro a b c hab hbc
      exact decide_eq_true (String.le_trans (of_decide_eq_true hab) (of_decide_eq_true hbc))
    · intro a b
      simpa using String.le_total a.1 b.1
  exact hsorted.imp of_decide_eq_true

theorem nodup_wantedFiles {t : FileTree} (h : (t.files.map (·.1)).Nodup) (tests : Bool)
    (dir : Path) : ((wantedFiles t tests dir).map (·.1)).Nodup := by
  refine (((List.mergeSort_perm _ _).map _).nodup_iff).mpr ?_
  exact (FileTree.nodup_filesIn h dir).sublist (List.filter_sublist.map _)

/-!
# Reading files
-/

def kept? (f : String × Text.Bytes) : Option (String × SourceFile) :=
  match Source.File.read f.2 with
  | .ok file => some (f.1, ⟨f.2, file⟩)
  | .error _ => none

def fault? (f : String × Text.Bytes) : Option SourceFault :=
  match Source.File.read f.2 with
  | .ok _ => none
  | .error (row, column) => some (.unreadable f.1 row column)

theorem parseFiles_eq (files : List (String × Text.Bytes)) :
    parseFiles files = (files.filterMap fault?, files.filterMap kept?) := by
  induction files with
  | nil => rfl
  | cons f rest ih =>
      obtain ⟨name, bytes⟩ := f
      rw [parseFiles, ih]
      cases hread : Source.File.read bytes with
      | ok file => simp [fault?, kept?, hread]
      | error place => simp [fault?, kept?, hread]

theorem kept?_eq_some_iff {f : String × Text.Bytes} {name : String} {source : SourceFile} :
    kept? f = some (name, source) ↔
      f = (name, source.bytes) ∧ Source.File.read source.bytes = .ok source.file := by
  obtain ⟨file, bytes⟩ := f
  obtain ⟨contents, tree⟩ := source
  unfold kept?
  cases hread : Source.File.read bytes with
  | ok tree' =>
      constructor
      · intro h
        cases h
        exact ⟨rfl, hread⟩
      · rintro ⟨heq, htree⟩
        cases heq
        simp only at htree
        rw [hread] at htree
        cases htree
        rfl
  | error place =>
      constructor
      · intro h
        cases h
      · rintro ⟨heq, htree⟩
        cases heq
        simp only at htree
        rw [hread] at htree
        cases htree

theorem fault?_eq_some_iff {f : String × Text.Bytes} {fault : SourceFault} :
    fault? f = some fault ↔ exists row column,
      Source.File.read f.2 = .error (row, column) ∧ fault = .unreadable f.1 row column := by
  unfold fault?
  cases hread : Source.File.read f.2 with
  | ok file => simp
  | error place =>
      obtain ⟨row, column⟩ := place
      simp [eq_comm]

/-!
# Choosing a package
-/

structure Library (name : String) : Prop where
  named : name ≠ ""
  not_main : name ≠ "main"
  not_test : ¬ "_test".toList <:+ name.toList

theorem isLibrary_iff {name : String} : isLibrary name = true ↔ Library name := by
  have hends : Text.endsWith name "_test" = true ↔ "_test".toList <:+ name.toList :=
    List.isSuffixOf_iff_suffix
  simp only [isLibrary, Bool.and_eq_true, bne_iff_ne, Bool.not_eq_true', ← Bool.not_eq_true, hends]
  constructor
  · rintro ⟨⟨hnamed, hmain⟩, htest⟩
    exact ⟨hnamed, hmain, htest⟩
  · rintro ⟨hnamed, hmain, htest⟩
    exact ⟨⟨hnamed, hmain⟩, htest⟩

theorem not_library_main : ¬ Library "main" := fun h => h.not_main rfl

def libraries (names : List String) : List String :=
  (names.filter isLibrary).eraseDups.mergeSort (· ≤ ·)

theorem mem_libraries_iff {names : List String} {name : String} :
    name ∈ libraries names ↔ name ∈ names ∧ Library name := by
  unfold libraries
  rw [List.mem_mergeSort, List.mem_eraseDups, List.mem_filter, isLibrary_iff]

theorem nodup_eraseDups (names : List String) : names.eraseDups.Nodup := by
  match names with
  | [] => simp
  | name :: rest =>
      rw [List.eraseDups_cons, List.nodup_cons, List.mem_eraseDups]
      constructor
      · simp
      · exact nodup_eraseDups (rest.filter fun other => !other == name)
termination_by names.length
decreasing_by exact Nat.lt_succ_of_le (List.length_filter_le _ _)

theorem nodup_libraries (names : List String) : (libraries names).Nodup :=
  (List.mergeSort_perm _ _).nodup_iff.mpr (nodup_eraseDups _)

section Choice

variable {dir : Path} {names : List String}

theorem choose_several (dir : Path) {name other : String} (hname : name ∈ names)
    (hother : other ∈ names) (hlibrary : Library name) (hlibrary' : Library other)
    (hne : name ≠ other) : exists first second,
      choose dir names = .error (.parse dir.text [.severalPackages first second]) ∧
      first ≠ second ∧ (first ∈ names ∧ Library first) ∧ second ∈ names ∧ Library second := by
  have hmem := mem_libraries_iff.mpr ⟨hname, hlibrary⟩
  have hmem' := mem_libraries_iff.mpr ⟨hother, hlibrary'⟩
  have hnodup := nodup_libraries names
  match hlist : libraries names with
  | [] =>
      rw [hlist] at hmem
      cases hmem
  | [only] =>
      rw [hlist, List.mem_singleton] at hmem hmem'
      exact absurd (hmem.trans hmem'.symm) hne
  | first :: second :: rest =>
      refine ⟨first, second, ?_, ?_, ?_, ?_⟩
      · unfold libraries at hlist
        simp only [choose, hlist]
      · rw [hlist, List.nodup_cons] at hnodup
        rintro rfl
        exact hnodup.1 List.mem_cons_self
      · rw [← mem_libraries_iff, hlist]
        exact List.mem_cons_self
      · rw [← mem_libraries_iff, hlist]
        exact List.mem_cons_of_mem _ List.mem_cons_self

theorem choose_single {name : String} (hname : name ∈ names) (hlibrary : Library name)
    (honly : forall other, other ∈ names -> Library other -> other = name) :
    choose dir names = .ok name := by
  have hmem := mem_libraries_iff.mpr ⟨hname, hlibrary⟩
  have hnodup := nodup_libraries names
  have hall : forall other, other ∈ libraries names -> other = name := by
    intro other hother
    obtain ⟨hin, hlibrary'⟩ := mem_libraries_iff.mp hother
    exact honly other hin hlibrary'
  have hlist : libraries names = [name] := by
    have hlength := List.eq_replicate_of_mem hall
    rw [hlength] at hnodup hmem ⊢
    have hone := List.nodup_replicate.mp hnodup
    have hpos : (libraries names).length ≠ 0 := by
      intro hzero
      simp [hzero] at hmem
    rw [show (libraries names).length = 1 by omega]
    rfl
  unfold libraries at hlist
  simp only [choose, hlist]

/-- The library wins over the tools and the tests beside it. -/
example : (choose ⟨"lib"⟩ ["main", "lib_test", "lib"]).toOption = some "lib" := by
  decide +kernel

theorem libraries_eq_nil (h : forall other, other ∈ names -> ¬ Library other) :
    libraries names = [] := by
  apply List.eq_nil_iff_forall_not_mem.mpr
  intro other hother
  obtain ⟨hin, hlibrary⟩ := mem_libraries_iff.mp hother
  exact h other hin hlibrary

theorem choose_main (h : forall other, other ∈ names -> ¬ Library other) (hmain : "main" ∈ names) :
    choose dir names = .ok "main" := by
  have hlist := libraries_eq_nil h
  unfold libraries at hlist
  simp [choose, hlist, hmain]

theorem choose_nothing (dir : Path) (h : forall other, other ∈ names -> ¬ Library other)
    (hmain : "main" ∉ names) : exists text, choose dir names = .error (.packageNotFound text) := by
  have hlist := libraries_eq_nil h
  unfold libraries at hlist
  exact ⟨_, by simp [choose, hlist, hmain]; rfl⟩

/-- A chosen name is the only library, or there is none and it is `main`. -/
theorem libraries_of_choose {name : String} (h : choose dir names = .ok name) :
    libraries names = [name] ∨ libraries names = [] ∧ name = "main" ∧ "main" ∈ names := by
  unfold choose at h
  split at h
  · cases h
  next hlist =>
    cases h
    exact .inl hlist
  next hlist =>
    split at h
    next hmain =>
      cases h
      exact .inr ⟨hlist, rfl, by simpa using hmain⟩
    · cases h

theorem single_of_choose {name : String} (h : choose dir names = .ok name)
    (hlibrary : Library name) :
    name ∈ names ∧ forall other, other ∈ names -> Library other -> other = name := by
  rcases libraries_of_choose h with hlist | ⟨_, rfl, _⟩
  · constructor
    · have hmem : name ∈ libraries names := by simp [hlist]
      exact (mem_libraries_iff.mp hmem).1
    · intro other hother hlibrary'
      have hmem := mem_libraries_iff.mpr ⟨hother, hlibrary'⟩
      simpa [hlist] using hmem
  · exact absurd hlibrary not_library_main

end Choice

end Loading
end GoAtlas
