import GoAtlas.Proofs.PackageFiles

/-!
# Loading package directories

A directory with a file that cannot be read fails to load, with every such file named.  When
all its files can be read, the library packages they declare decide: one of them is loaded, two
of them are an error, and `main` is loaded only where there is none.  Tools and test packages
beside a library therefore change nothing.
-/

namespace GoAtlas
namespace Loading

/-!
# Loading
-/

section Directories

variable {t : FileTree} {tests : Bool} {dir : Path} {path : String}

def keptIn (t : FileTree) (tests : Bool) (dir : Path) : List (String × SourceFile) :=
  (wantedFiles t tests dir).filterMap kept?

def faultsIn (t : FileTree) (tests : Bool) (dir : Path) : List SourceFault :=
  (wantedFiles t tests dir).filterMap fault?

def declaredIn (t : FileTree) (tests : Bool) (dir : Path) : List String :=
  (keptIn t tests dir).map fun s => s.2.file.packageName

def packageIn (t : FileTree) (tests : Bool) (dir : Path) (path name : String) : LoadedPackage :=
  ⟨dir, path, name,
    ((keptIn t tests dir).filter fun s => s.2.file.packageName == name).map (·.1),
    keptIn t tests dir⟩

theorem load_eq (t : FileTree) (tests : Bool) (dir : Path) (path : String) :
    load t tests dir path =
      if !t.isDir dir then .error (.packageNotFound (dir.text ++ " is not a directory"))
      else if !(faultsIn t tests dir).isEmpty then .error (.parse dir.text (faultsIn t tests dir))
      else
        match choose dir (declaredIn t tests dir) with
        | .ok name => .ok (packageIn t tests dir path name)
        | .error e => .error e := by
  unfold load faultsIn declaredIn packageIn keptIn
  rw [parseFiles_eq]
  split
  · rfl
  · dsimp only
    split
    · rfl
    · cases choose dir (((wantedFiles t tests dir).filterMap kept?).map
        fun s => s.2.file.packageName) with
      | ok name => rfl
      | error e => rfl

theorem mem_keptIn_iff {file : String} {source : SourceFile} :
    (file, source) ∈ keptIn t tests dir ↔
      Stands t tests dir file source.bytes ∧ Source.File.read source.bytes = .ok source.file := by
  unfold keptIn
  rw [List.mem_filterMap]
  constructor
  · rintro ⟨f, hf, hkept⟩
    obtain ⟨rfl, hread⟩ := kept?_eq_some_iff.mp hkept
    exact ⟨mem_wantedFiles_iff.mp hf, hread⟩
  · rintro ⟨hstands, hread⟩
    exact ⟨_, mem_wantedFiles_iff.mpr hstands, kept?_eq_some_iff.mpr ⟨rfl, hread⟩⟩

theorem mem_faultsIn_iff {fault : SourceFault} :
    fault ∈ faultsIn t tests dir ↔ exists file bytes row column, Stands t tests dir file bytes ∧
      Source.File.read bytes = .error (row, column) ∧ fault = .unreadable file row column := by
  unfold faultsIn
  rw [List.mem_filterMap]
  constructor
  · rintro ⟨⟨file, bytes⟩, hf, hfault⟩
    obtain ⟨row, column, hread, rfl⟩ := fault?_eq_some_iff.mp hfault
    exact ⟨file, bytes, row, column, mem_wantedFiles_iff.mp hf, hread, rfl⟩
  · rintro ⟨file, bytes, row, column, hstands, hread, rfl⟩
    exact ⟨(file, bytes), mem_wantedFiles_iff.mpr hstands,
      fault?_eq_some_iff.mpr ⟨row, column, hread, rfl⟩⟩

def Readable (t : FileTree) (tests : Bool) (dir : Path) : Prop :=
  forall file bytes, Stands t tests dir file bytes ->
    exists tree, Source.File.read bytes = .ok tree

theorem faultsIn_eq_nil_iff : faultsIn t tests dir = [] ↔ Readable t tests dir := by
  rw [List.eq_nil_iff_forall_not_mem]
  constructor
  · intro h file bytes hstands
    cases hread : Source.File.read bytes with
    | ok tree => exact ⟨tree, rfl⟩
    | error place =>
        exact absurd (mem_faultsIn_iff.mpr ⟨file, bytes, _, _, hstands, hread, rfl⟩) (h _)
  · intro h fault hfault
    obtain ⟨file, bytes, row, column, hstands, hread, _⟩ := mem_faultsIn_iff.mp hfault
    obtain ⟨tree, htree⟩ := h file bytes hstands
    rw [hread] at htree
    cases htree

def Declares (t : FileTree) (tests : Bool) (dir : Path) (file package : String) : Prop :=
  exists bytes tree, Stands t tests dir file bytes ∧ Source.File.read bytes = .ok tree ∧
    tree.packageName = package

theorem mem_declaredIn_iff {package : String} :
    package ∈ declaredIn t tests dir ↔ exists file, Declares t tests dir file package := by
  unfold declaredIn Declares
  rw [List.mem_map]
  constructor
  · rintro ⟨⟨file, source⟩, hkept, rfl⟩
    obtain ⟨hstands, hread⟩ := mem_keptIn_iff.mp hkept
    exact ⟨file, source.bytes, source.file, hstands, hread, rfl⟩
  · rintro ⟨file, bytes, tree, hstands, hread, rfl⟩
    exact ⟨(file, ⟨bytes, tree⟩), mem_keptIn_iff.mpr ⟨hstands, hread⟩, rfl⟩

theorem load_of_choose {name : String} (hdir : t.isDir dir = true)
    (hreadable : Readable t tests dir) (h : choose dir (declaredIn t tests dir) = .ok name) :
    load t tests dir path = .ok (packageIn t tests dir path name) := by
  rw [load_eq, faultsIn_eq_nil_iff.mpr hreadable, h]
  simp [hdir]

theorem load_of_choose_error {e : Error} (hdir : t.isDir dir = true)
    (hreadable : Readable t tests dir) (h : choose dir (declaredIn t tests dir) = .error e) :
    load t tests dir path = .error e := by
  rw [load_eq, faultsIn_eq_nil_iff.mpr hreadable, h]
  simp [hdir]

theorem eq_of_load {p : LoadedPackage} (h : load t tests dir path = .ok p) :
    t.isDir dir = true ∧ Readable t tests dir ∧
      choose dir (declaredIn t tests dir) = .ok p.name ∧ p = packageIn t tests dir path p.name := by
  rw [load_eq] at h
  split at h
  · cases h
  next hdir =>
    split at h
    · cases h
    next hfaults =>
      split at h
      next name hname =>
        cases h
        refine ⟨by simpa using hdir, faultsIn_eq_nil_iff.mp (by simpa using hfaults), hname, rfl⟩
      · cases h

/-!
# Files of a loaded package
-/

theorem mem_files_packageIn_iff {name file : String} :
    file ∈ (packageIn t tests dir path name).files ↔ Declares t tests dir file name := by
  simp only [packageIn, List.mem_map, List.mem_filter, beq_iff_eq]
  constructor
  · rintro ⟨⟨file, source⟩, ⟨hkept, rfl⟩, rfl⟩
    obtain ⟨hstands, hread⟩ := mem_keptIn_iff.mp hkept
    exact ⟨source.bytes, source.file, hstands, hread, rfl⟩
  · rintro ⟨bytes, tree, hstands, hread, rfl⟩
    exact ⟨(file, ⟨bytes, tree⟩), ⟨mem_keptIn_iff.mpr ⟨hstands, hread⟩, rfl⟩, rfl⟩

theorem name_of_kept? {f : String × Text.Bytes} {s : String × SourceFile} (h : kept? f = some s) :
    s.1 = f.1 := by
  obtain ⟨rfl, _⟩ := kept?_eq_some_iff.mp h
  rfl

theorem pairwise_keptIn {order : String -> String -> Prop}
    (h : (wantedFiles t tests dir).Pairwise fun a b => order a.1 b.1) :
    (keptIn t tests dir).Pairwise fun a b => order a.1 b.1 := by
  refine List.Pairwise.filterMap kept? ?_ h
  intro f g hfg a ha b hb
  rw [name_of_kept? ha, name_of_kept? hb]
  exact hfg

theorem pairwise_files_packageIn {order : String -> String -> Prop} (name : String)
    (h : (wantedFiles t tests dir).Pairwise fun a b => order a.1 b.1) :
    (packageIn t tests dir path name).files.Pairwise order := by
  unfold packageIn
  rw [List.pairwise_map]
  exact (pairwise_keptIn h).filter _

theorem strict_wantedFiles (h : (t.files.map (·.1)).Nodup) :
    (wantedFiles t tests dir).Pairwise fun a b => a.1 < b.1 := by
  have hnodup := nodup_wantedFiles h tests dir
  unfold List.Nodup at hnodup
  rw [List.pairwise_map] at hnodup
  refine ((pairwise_wantedFiles t tests dir).and hnodup).imp ?_
  rintro a b ⟨hle, hne⟩
  exact Std.lt_of_le_of_ne hle hne

theorem stands_of_contents? {name file : String} {bytes : Text.Bytes}
    (h : (packageIn t tests dir path name).contents? file = some bytes) :
    Stands t tests dir file bytes := by
  obtain ⟨source, hsource, rfl⟩ := Option.map_eq_some_iff.mp h
  exact (mem_keptIn_iff.mp (Table.mem_of_lookup hsource)).1

theorem contents?_of_stands {name file : String} {bytes : Text.Bytes}
    (hdistinct : (t.files.map (·.1)).Nodup) (hreadable : Readable t tests dir)
    (h : Stands t tests dir file bytes) :
    (packageIn t tests dir path name).contents? file = some bytes := by
  obtain ⟨tree, hread⟩ := hreadable file bytes h
  have hmem : (file, SourceFile.mk bytes tree) ∈ keptIn t tests dir := mem_keptIn_iff.mpr ⟨h, hread⟩
  have hnames : ((keptIn t tests dir).map (·.1)).Nodup := by
    unfold List.Nodup
    rw [List.pairwise_map]
    refine (pairwise_keptIn (strict_wantedFiles hdistinct)).imp ?_
    intro a b hlt heq
    rw [heq] at hlt
    exact String.lt_irrefl _ hlt
  have hlookup : (keptIn t tests dir).lookup file = some ⟨bytes, tree⟩ :=
    Table.lookup_of_mem hnames hmem
  simp [LoadedPackage.contents?, LoadedPackage.source?, packageIn, hlookup]

/-!
# More files
-/

/-- Files that may be put beside a library: those of them that are wanted in the directory can
be read and declare no library. -/
def Beside (t : FileTree) (tests : Bool) (dir : Path)
    (more : List (Location × Text.Bytes)) : Prop :=
  forall l file bytes, t.locate? dir = some l -> (l ++ [file], bytes) ∈ more -> Wanted tests file ->
    exists tree, Source.File.read bytes = .ok tree ∧ ¬ Library tree.packageName

variable {more : List (Location × Text.Bytes)} {l : Location}

theorem stands_withFiles_iff (hlocate : t.locate? dir = some l) {file : String}
    {bytes : Text.Bytes} :
    Stands (t.withFiles more) tests dir file bytes ↔
      Stands t tests dir file bytes ∨ Wanted tests file ∧ (l ++ [file], bytes) ∈ more := by
  have hlocate' := FileTree.locate?_withFiles more hlocate
  constructor
  · rintro ⟨hwanted, l', hl', hmem⟩
    rw [hlocate'] at hl'
    cases hl'
    rcases List.mem_append.mp hmem with hold | hnew
    · exact .inl ⟨hwanted, l, hlocate, hold⟩
    · exact .inr ⟨hwanted, hnew⟩
  · rintro (⟨hwanted, l', hl', hmem⟩ | ⟨hwanted, hmem⟩)
    · rw [hlocate] at hl'
      cases hl'
      exact ⟨hwanted, l, hlocate', List.mem_append_left _ hmem⟩
    · exact ⟨hwanted, l, hlocate', List.mem_append_right _ hmem⟩

theorem readable_withFiles (hlocate : t.locate? dir = some l) (h : Readable t tests dir)
    (hmore : Beside t tests dir more) : Readable (t.withFiles more) tests dir := by
  intro file bytes hstands
  rcases (stands_withFiles_iff hlocate).mp hstands with hold | ⟨hwanted, hnew⟩
  · exact h file bytes hold
  · obtain ⟨tree, hread, _⟩ := hmore l file bytes hlocate hnew hwanted
    exact ⟨tree, hread⟩

theorem declared_withFiles_iff (hlocate : t.locate? dir = some l) (hmore : Beside t tests dir more)
    {package : String} (hlibrary : Library package) :
    package ∈ declaredIn (t.withFiles more) tests dir ↔ package ∈ declaredIn t tests dir := by
  rw [mem_declaredIn_iff, mem_declaredIn_iff]
  constructor
  · rintro ⟨file, bytes, tree, hstands, hread, rfl⟩
    rcases (stands_withFiles_iff hlocate).mp hstands with hold | ⟨hwanted, hnew⟩
    · exact ⟨file, bytes, tree, hold, hread, rfl⟩
    · obtain ⟨tree', hread', hnot⟩ := hmore l file bytes hlocate hnew hwanted
      rw [hread] at hread'
      cases hread'
      exact absurd hlibrary hnot
  · rintro ⟨file, bytes, tree, hstands, hread, hpackage⟩
    exact ⟨file, bytes, tree, (stands_withFiles_iff hlocate).mpr (.inl hstands), hread, hpackage⟩

def arrivals (tests : Bool) (l : Location) (more : List (Location × Text.Bytes)) :
    List (String × Text.Bytes) :=
  (more.filterMap (FileTree.nameAt? l)).filter fun f => isWanted tests f.1

theorem wantedFiles_withFiles_perm (hlocate : t.locate? dir = some l) :
    (wantedFiles (t.withFiles more) tests dir).Perm
      (wantedFiles t tests dir ++ arrivals tests l more) := by
  unfold wantedFiles arrivals
  rw [FileTree.filesIn_withFiles hlocate, List.filter_append]
  exact (List.mergeSort_perm _ _).trans ((List.mergeSort_perm _ _).symm.append_right _)

theorem filter_arrivals (hlocate : t.locate? dir = some l) (hmore : Beside t tests dir more)
    {package : String} (hlibrary : Library package) :
    ((arrivals tests l more).filterMap kept?).filter
      (fun s => s.2.file.packageName == package) = [] := by
  rw [List.filter_eq_nil_iff]
  rintro ⟨file, source⟩ hs
  obtain ⟨f, hf, hkept⟩ := List.mem_filterMap.mp hs
  obtain ⟨rfl, hread⟩ := kept?_eq_some_iff.mp hkept
  obtain ⟨hmem, hwanted⟩ := List.mem_filter.mp hf
  obtain ⟨f, hf, hname⟩ := List.mem_filterMap.mp hmem
  rw [FileTree.nameAt?_eq_some_iff.mp hname] at hf
  obtain ⟨tree, hread', hnot⟩ := hmore l file source.bytes hlocate hf (isWanted_iff.mp hwanted)
  rw [hread] at hread'
  cases hread'
  rw [beq_iff_eq]
  rintro rfl
  exact hnot hlibrary

theorem files_withFiles (hlocate : t.locate? dir = some l) (hmore : Beside t tests dir more)
    {package : String} (hlibrary : Library package) :
    (packageIn (t.withFiles more) tests dir path package).files =
      (packageIn t tests dir path package).files := by
  have hperm : (packageIn (t.withFiles more) tests dir path package).files.Perm
      (packageIn t tests dir path package).files := by
    unfold packageIn keptIn
    apply List.Perm.map
    have hwanted : (wantedFiles (t.withFiles more) tests dir).Perm
        (wantedFiles t tests dir ++ arrivals tests l more) := wantedFiles_withFiles_perm hlocate
    have hkept := (hwanted.filterMap kept?).filter fun s => s.2.file.packageName == package
    rwa [List.filterMap_append, List.filter_append, filter_arrivals hlocate hmore hlibrary,
      List.append_nil] at hkept
  -- Both lists are sorted, so they are told by their members.
  exact hperm.eq_of_pairwise (fun a b _ _ => String.le_antisymm)
    (pairwise_files_packageIn package (pairwise_wantedFiles _ tests dir))
    (pairwise_files_packageIn package (pairwise_wantedFiles t tests dir))

/-!
# What is selected
-/

/-- Loading a directory selects one package, or tells why it does not. -/
structure SelectsOne (t : FileTree) (tests : Bool) (dir : Path) (path : String) : Prop where
  unreadable : ¬ Readable t tests dir ->
    exists faults, load t tests dir path = .error (.parse dir.text faults) ∧
      forall fault, fault ∈ faults ↔
        exists file bytes row column, Stands t tests dir file bytes ∧
          Source.File.read bytes = .error (row, column) ∧ fault = .unreadable file row column
  several : Readable t tests dir -> forall name other file file', name ≠ other ->
    Library name -> Declares t tests dir file name ->
    Library other -> Declares t tests dir file' other ->
    exists first second,
      load t tests dir path = .error (.parse dir.text [.severalPackages first second]) ∧
        first ≠ second ∧ forall found, found = first ∨ found = second ->
          Library found ∧ exists file, Declares t tests dir file found
  single : Readable t tests dir -> forall name file, Library name ->
    Declares t tests dir file name ->
    (forall other file', Library other -> Declares t tests dir file' other -> other = name) ->
    exists p, load t tests dir path = .ok p ∧ p.name = name
  main : Readable t tests dir ->
    (forall other file', Library other -> ¬ Declares t tests dir file' other) ->
    forall file, Declares t tests dir file "main" ->
    exists p, load t tests dir path = .ok p ∧ p.name = "main"
  nothing : Readable t tests dir ->
    (forall other file', Library other -> ¬ Declares t tests dir file' other) ->
    (forall file, ¬ Declares t tests dir file "main") ->
    exists text, load t tests dir path = .error (.packageNotFound text)
  files : forall p, load t tests dir path = .ok p ->
    p.files.Pairwise (· ≤ ·) ∧ forall file, file ∈ p.files ↔ Declares t tests dir file p.name
  contents : forall p, load t tests dir path = .ok p -> forall file bytes,
    p.contents? file = some bytes -> Stands t tests dir file bytes
  /-- A file system lists no location twice. -/
  exact : (t.files.map (·.1)).Nodup -> forall p, load t tests dir path = .ok p ->
    p.files.Pairwise (· < ·) ∧
      forall file bytes, p.contents? file = some bytes ↔ Stands t tests dir file bytes
  grown : forall p, load t tests dir path = .ok p -> Library p.name ->
    forall more, Beside t tests dir more ->
    exists q, load (t.withFiles more) tests dir path = .ok q ∧ q.name = p.name ∧ q.files = p.files

theorem load_withFiles {p : LoadedPackage} (h : load t tests dir path = .ok p)
    (hlibrary : Library p.name) (hmore : Beside t tests dir more) :
    exists q, load (t.withFiles more) tests dir path = .ok q ∧ q.name = p.name ∧
      q.files = p.files := by
  obtain ⟨hdir, hreadable, hchoose, hp⟩ := eq_of_load h
  obtain ⟨l, hlocate, _⟩ := FileTree.isDir_iff.mp hdir
  obtain ⟨hname, honly⟩ := single_of_choose hchoose hlibrary
  have hchoose' : choose dir (declaredIn (t.withFiles more) tests dir) = .ok p.name := by
    apply choose_single
    · exact (declared_withFiles_iff hlocate hmore hlibrary).mpr hname
    · exact hlibrary
    · intro other hother hlibrary'
      exact honly other ((declared_withFiles_iff hlocate hmore hlibrary').mp hother) hlibrary'
  refine ⟨packageIn (t.withFiles more) tests dir path p.name, ?_, rfl, ?_⟩
  · exact load_of_choose (FileTree.isDir_withFiles more hdir)
      (readable_withFiles hlocate hreadable hmore) hchoose'
  · rw [files_withFiles hlocate hmore hlibrary, ← hp]

theorem load_unreadable (hdir : t.isDir dir = true) (h : ¬ Readable t tests dir) :
    exists faults, load t tests dir path = .error (.parse dir.text faults) ∧
      forall fault, fault ∈ faults ↔
        exists file bytes row column, Stands t tests dir file bytes ∧
          Source.File.read bytes = .error (row, column) ∧ fault = .unreadable file row column := by
  have hfaults : faultsIn t tests dir ≠ [] := fun hnil => h (faultsIn_eq_nil_iff.mp hnil)
  refine ⟨faultsIn t tests dir, ?_, fun fault => mem_faultsIn_iff⟩
  rw [load_eq]
  simp [hdir, hfaults]

theorem load_several (hdir : t.isDir dir = true) (hreadable : Readable t tests dir)
    {name other file file' : String} (hne : name ≠ other) (hlibrary : Library name)
    (hdeclares : Declares t tests dir file name) (hlibrary' : Library other)
    (hdeclares' : Declares t tests dir file' other) : exists first second,
      load t tests dir path = .error (.parse dir.text [.severalPackages first second]) ∧
        first ≠ second ∧ forall found, found = first ∨ found = second ->
          Library found ∧ exists file, Declares t tests dir file found := by
  obtain ⟨first, second, herror, hdistinct, hfirst, hsecond⟩ := choose_several dir
    (mem_declaredIn_iff.mpr ⟨file, hdeclares⟩) (mem_declaredIn_iff.mpr ⟨file', hdeclares'⟩)
    hlibrary hlibrary' hne
  refine ⟨first, second, load_of_choose_error hdir hreadable herror, hdistinct, ?_⟩
  rintro found (rfl | rfl)
  · exact ⟨hfirst.2, mem_declaredIn_iff.mp hfirst.1⟩
  · exact ⟨hsecond.2, mem_declaredIn_iff.mp hsecond.1⟩

theorem load_single (hdir : t.isDir dir = true) (hreadable : Readable t tests dir)
    {name file : String} (hlibrary : Library name) (hdeclares : Declares t tests dir file name)
    (honly : forall other file', Library other -> Declares t tests dir file' other ->
      other = name) : exists p, load t tests dir path = .ok p ∧ p.name = name := by
  have hchoose : choose dir (declaredIn t tests dir) = .ok name := by
    apply choose_single
    · exact mem_declaredIn_iff.mpr ⟨file, hdeclares⟩
    · exact hlibrary
    · intro other hother hlibrary'
      obtain ⟨file', hdeclares'⟩ := mem_declaredIn_iff.mp hother
      exact honly other file' hlibrary' hdeclares'
  exact ⟨_, load_of_choose hdir hreadable hchoose, rfl⟩

/-- What becomes of a directory is decided by the packages its wanted files declare. -/
theorem selectsOne (hdir : t.isDir dir = true) : SelectsOne t tests dir path := by
  have hnone : (forall other file', Library other -> ¬ Declares t tests dir file' other) ->
      forall other, other ∈ declaredIn t tests dir -> ¬ Library other := by
    intro h other hother hlibrary
    obtain ⟨file, hdeclares⟩ := mem_declaredIn_iff.mp hother
    exact h other file hlibrary hdeclares
  constructor
  · exact load_unreadable hdir
  · intro hreadable name other file file' hne hlibrary hdeclares hlibrary' hdeclares'
    exact load_several hdir hreadable hne hlibrary hdeclares hlibrary' hdeclares'
  · intro hreadable name file hlibrary hdeclares honly
    exact load_single hdir hreadable hlibrary hdeclares honly
  · intro hreadable hlibraries file hdeclares
    have hchoose : choose dir (declaredIn t tests dir) = .ok "main" :=
      choose_main (hnone hlibraries) (mem_declaredIn_iff.mpr ⟨file, hdeclares⟩)
    exact ⟨_, load_of_choose hdir hreadable hchoose, rfl⟩
  · intro hreadable hlibraries hmain
    have habsent : "main" ∉ declaredIn t tests dir := by
      intro hmem
      obtain ⟨file, hdeclares⟩ := mem_declaredIn_iff.mp hmem
      exact hmain file hdeclares
    obtain ⟨text, herror⟩ := choose_nothing dir (hnone hlibraries) habsent
    exact ⟨text, load_of_choose_error hdir hreadable herror⟩
  · intro p h
    obtain ⟨_, _, _, hp⟩ := eq_of_load h
    rw [hp]
    constructor
    · exact pairwise_files_packageIn _ (pairwise_wantedFiles t tests dir)
    · intro file
      exact mem_files_packageIn_iff
  · intro p h file bytes hcontents
    obtain ⟨_, _, _, hp⟩ := eq_of_load h
    rw [hp] at hcontents
    exact stands_of_contents? hcontents
  · intro hdistinct p h
    obtain ⟨_, hreadable, _, hp⟩ := eq_of_load h
    rw [hp]
    constructor
    · exact pairwise_files_packageIn _ (strict_wantedFiles hdistinct)
    · intro file bytes
      constructor
      · exact stands_of_contents?
      · exact contents?_of_stands hdistinct hreadable
  · intro p h hlibrary more hmore
    exact load_withFiles h hlibrary hmore

end Directories

def stockedTree : FileTree :=
  ⟨[(["lib", "b.go"], Text.encode "package lib\n"),
    (["lib", "gen.go"], Text.encode "package main\n"),
    (["lib", "a.go"], Text.encode "package lib\n"),
    (["lib", "a_test.go"], Text.encode "package lib_test\n")], [], []⟩

theorem selectsOne_stockedTree :
    stockedTree.isDir ⟨"lib"⟩ = true ∧ SelectsOne stockedTree true ⟨"lib"⟩ "w/lib" :=
  ⟨by decide +kernel, selectsOne (by decide +kernel)⟩

end Loading
end GoAtlas
