import GoAtlas.Proofs.Session.Operation
import GoAtlas.Proofs.Session.Soundness

/-!
# Reading back what was spelled

A session spells the name of a type for use in a package, and reads what is written there back
into a full name.  A name of the package itself is read back.  A name of an import is read back if
the two packages have different names and that of the import has no dot: packages of one name
are taken for one, and what is written behind the first dot is taken for the type.
-/

namespace GoAtlas

namespace Text

theorem cutFirst?_of_notMem {sep : Char} {cs : List Char} (h : sep ∉ cs) :
    cutFirst? sep cs = none := by
  induction cs with
  | nil => rfl
  | cons c rest ih =>
      rw [List.mem_cons, not_or] at h
      have hne : (c == sep) = false := by simpa using Ne.symm h.1
      rw [cutFirst?, hne, ih h.2]
      rfl

theorem cutFirst?_append {sep : Char} {front back : List Char} (h : sep ∉ front) :
    cutFirst? sep (front ++ sep :: back) = some (front, back) := by
  induction front with
  | nil => simp [cutFirst?]
  | cons c rest ih =>
      rw [List.mem_cons, not_or] at h
      have hne : (c == sep) = false := by simpa using Ne.symm h.1
      rw [List.cons_append, cutFirst?, hne, ih h.2]
      rfl

end Text

namespace Session

section Reading

variable {s : Session} {path : String} {package : Package}

theorem run_resolve_resolved (h : s.package? path = some package) :
    (resolve path).run s = (.ok (some package), s.countRequest.countHit) := by
  rw [run_resolve, run_resolveFrom, run_resolveWithin_cached (package?_eq_some_iff.mp h)]
  rfl

theorem run_findImportPath_bare (h : s.package? path = some package) {type : String}
    (htype : '.' ∉ type.toList) :
    ((findImportPath path type).run s).1 = .ok (path ++ "." ++ type) := by
  unfold findImportPath
  rw [run_bind_ok (run_resolve_resolved h)]
  dsimp only
  rw [Text.cutFirst?_of_notMem htype]
  rfl

/-- What is written with dots is read as a name of the first import that is known by what stands
before the first dot. -/
theorem run_findImportPath_dotted (h : s.package? path = some package) {label rest : String}
    (hlabel : '.' ∉ label.toList) :
    ((findImportPath path (label ++ "." ++ rest)).run s).1 =
      match package.imports.find? fun i => s.importLabel i == label with
      | some i => .ok (i ++ "." ++ rest)
      | none => .error (noImportPath path (label ++ "." ++ rest)) := by
  have hchars : (label ++ "." ++ rest).toList = label.toList ++ '.' :: rest.toList := by
    simp [String.toList_append]
  have hsame : forall i, (s.countRequest.countHit).importLabel i = s.importLabel i := fun _ => rfl
  unfold findImportPath
  rw [run_bind_ok (run_resolve_resolved h)]
  dsimp only
  rw [hchars, Text.cutFirst?_append hlabel]
  dsimp only
  rw [run_get_bind, String.ofList_toList, String.ofList_toList]
  simp only [hsame]
  cases package.imports.find? fun i => s.importLabel i == label with
  | some i => rfl
  | none => rfl

end Reading

/-!
# Spelling
-/

section Spelling

variable {s : Session} {path other : String} {package target : Package}

theorem localPackage_of_resolved (h : s.package? path = some package) :
    s.localPackage path = .ok package.name := by
  unfold localPackage
  rw [h]

/-- A name is spelled with the name of its package unless that is the name of the package it is
spelled for. -/
theorem localImportName_of_resolved (h : s.package? path = some package)
    (htarget : s.package? other = some target) (hmain : target.name ≠ "main" ∨ other = path)
    (type : String) :
    s.localImportName (.declared other type) path =
      .ok (if target.name = package.name then type else target.name ++ "." ++ type) := by
  have hrefused : (target.name == "main" && other != path) = false := by
    rcases hmain with hmain | hsame
    · simp [hmain]
    · simp [hsame]
  unfold localImportName
  simp only [TypeName.isBuiltin, TypeName.packagePath, TypeName.name,
    localPackage_of_resolved htarget, localPackage_of_resolved h, bind, Except.bind, hrefused,
    Bool.false_eq_true, if_false, beq_iff_eq]
  rfl

def readBack (s : Session) (name : TypeName) (path : String) : Except Error String :=
  match s.localImportName name path with
  | .ok text => ((findImportPath path text).run s).1
  | .error e => .error e

structure Tellable (s : Session) (package : Package) (other : String) (target : Package) :
    Prop where
  resolved : s.package? other = some target
  proper : target.name ≠ "main"
  imported : other ∈ package.imports
  alone : forall i, i ∈ package.imports -> s.importLabel i = target.name -> i = other

theorem Tellable.find? (h : s.Tellable package other target) :
    (package.imports.find? fun i => s.importLabel i == target.name) = some other := by
  have hlabel : s.importLabel other = target.name := by
    unfold importLabel
    rw [h.resolved]
  cases hfound : package.imports.find? fun i => s.importLabel i == target.name with
  | none =>
      have hnone := List.find?_eq_none.mp hfound other h.imported
      exact absurd (beq_iff_eq.mpr hlabel) hnone
  | some i =>
      have hsame := List.find?_some hfound
      rw [h.alone i (List.mem_of_find?_eq_some hfound) (beq_iff_eq.mp hsame)]

structure ReadsBack (s : Session) (path : String) (package : Package) (type : String) : Prop where
  own : s.readBack (.declared path type) path = .ok (path ++ "." ++ type)
  imported : forall other target, s.Tellable package other target ->
    target.name ≠ package.name -> '.' ∉ target.name.toList ->
      s.readBack (.declared other type) path = .ok (other ++ "." ++ type)
  /-- A package of the same name is taken for the package itself. -/
  twin : forall other target, s.Tellable package other target ->
    target.name = package.name -> s.readBack (.declared other type) path = .ok (path ++ "." ++ type)
  /-- A name with a dot is cut there. -/
  dotted : forall other target, s.Tellable package other target ->
    target.name ≠ package.name -> forall label rest, '.' ∉ label.toList ->
      target.name = label ++ "." ++ rest ->
        s.readBack (.declared other type) path =
          match package.imports.find? fun i => s.importLabel i == label with
          | some i => .ok (i ++ "." ++ (rest ++ "." ++ type))
          | none => .error (noImportPath path (target.name ++ "." ++ type))

theorem readsBack (h : s.package? path = some package) {type : String}
    (htype : '.' ∉ type.toList) : s.ReadsBack path package type := by
  have hspelled : forall other target, s.Tellable package other target ->
      s.readBack (.declared other type) path =
        ((findImportPath path (if target.name = package.name then type
          else target.name ++ "." ++ type)).run s).1 := by
    intro other target htell
    unfold readBack
    rw [localImportName_of_resolved h htell.resolved (Or.inl htell.proper)]
  constructor
  · unfold readBack
    rw [localImportName_of_resolved h h (Or.inr rfl), if_pos rfl]
    exact run_findImportPath_bare h htype
  · intro other target htell hne hdot
    rw [hspelled other target htell, if_neg hne, run_findImportPath_dotted h hdot, htell.find?]
  · intro other target htell heq
    rw [hspelled other target htell, if_pos heq]
    exact run_findImportPath_bare h htype
  · intro other target htell hne label rest hlabel hname
    have htext : target.name ++ "." ++ type = label ++ "." ++ (rest ++ "." ++ type) := by
      rw [hname]
      simp only [String.append_assoc]
    rw [hspelled other target htell, if_neg hne, htext, run_findImportPath_dotted h hlabel]

end Spelling

def twoPackages (name : String) : Session :=
  after (goSetup
    ⟨[(["w", "x", "x.go"], Text.encode "package a\n\nimport \"y\"\n\nvar V y.T\n"),
      (["w", "y", "y.go"], Text.encode ("package " ++ name ++ "\n\ntype T int\n"))], [], []⟩
    ⟨some ⟨"/w"⟩, none, "vendor"⟩ ⟨false, true⟩) [.resolve "x"]

theorem tellable_twoPackages (name : String) (hmain : name ≠ "main")
    (h : (((twoPackages name).package? "x").bind fun package =>
      ((twoPackages name).package? "y").map fun target =>
        (package.name, target.name, package.imports)) = some ("a", name, ["y"])) :
    exists package target, (twoPackages name).package? "x" = some package ∧
      (twoPackages name).Tellable package "y" target ∧
      package.name = "a" ∧ target.name = name := by
  rcases Option.bind_eq_some_iff.mp h with ⟨package, hpackage, htarget⟩
  rcases Option.map_eq_some_iff.mp htarget with ⟨target, hresolved, hnames⟩
  simp only [Prod.mk.injEq] at hnames
  rcases hnames with ⟨hname, hother, himports⟩
  refine ⟨package, target, hpackage, ⟨hresolved, hother ▸ hmain, ?_, ?_⟩, hname, hother⟩
  · rw [himports]
    exact List.mem_singleton_self "y"
  · intro i hi _
    rw [himports] at hi
    exact List.mem_singleton.mp hi

theorem readsBack_twoPackages :
    exists package target, (twoPackages "b").package? "x" = some package ∧
      (twoPackages "b").Tellable package "y" target ∧
      (twoPackages "b").ReadsBack "x" package "T" ∧
      (twoPackages "b").readBack (.declared "y" "T") "x" = .ok "y.T" := by
  rcases tellable_twoPackages "b" (by decide) (by decide +kernel) with
    ⟨package, target, hpackage, htell, hname, hother⟩
  have hdot : '.' ∉ "T".toList := by decide
  have h := readsBack hpackage hdot
  refine ⟨package, target, hpackage, htell, h, ?_⟩
  apply h.imported "y" target htell
  · rw [hname, hother]
    decide
  · rw [hother]
    decide

/-- A name of a package with the same name at another path is read as one of the package itself. -/
theorem twin_not_read_back :
    exists package target, (twoPackages "a").package? "x" = some package ∧
      (twoPackages "a").Tellable package "y" target ∧
      (twoPackages "a").readBack (.declared "y" "T") "x" = .ok "x.T" ∧
      (twoPackages "a").readBack (.declared "y" "T") "x" ≠ .ok "y.T" := by
  rcases tellable_twoPackages "a" (by decide) (by decide +kernel) with
    ⟨package, target, hpackage, htell, _, _⟩
  have hread : (twoPackages "a").readBack (.declared "y" "T") "x" = .ok "x.T" ∧
      (twoPackages "a").readBack (.declared "y" "T") "x" ≠ .ok "y.T" := by
    decide +kernel
  exact ⟨package, target, hpackage, htell, hread⟩

end Session
end GoAtlas
