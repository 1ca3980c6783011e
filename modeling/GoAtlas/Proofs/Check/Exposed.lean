import GoAtlas.Proofs.Check.PackageTrails
import GoAtlas.Proofs.Check.TwinScopes
import GoAtlas.Proofs.Check.Values
import GoAtlas.Proofs.Lists

/-!
# What a package sees of others

A check looks at exported names of other packages, at names that the package spells where a value
or the target of a conversion is wanted, exported or not, and at names that are mentioned where such
names are defined.  Twin scopes, whose imports differ in nothing else, share all that is spelled.
-/

namespace GoAtlas

namespace Scope

/-- Names of other packages that the declarations of a scope come across. -/
inductive Exposed (sc : Scope) (answers : Answers) : String -> String -> Prop where
  | exported {q name : String} (h : isExported name = true) : Exposed sc answers q name
  /-- It is spelled behind a qualifier. -/
  | qualified {file label name : String} {b : Binding} (hs : sc.Spells file (.qualified label name))
      (hb : sc.import? file label = some b) : Exposed sc answers b.path name
  /-- It is spelled without one where the package is imported so, and is no constant of the scope
  itself. -/
  | dotted {file name : String} {b : Binding} (hs : sc.Spells file (.plain name))
      (hlocal : sc.constIndex? name = none) (hb : b ∈ (sc.fileScope file).dots) :
      Exposed sc answers b.path name
  /-- The definition of a type mentions it. -/
  | ofType {q name r other : String} {package : Package} {d : TypeDef}
      (h : Exposed sc answers q name) (hq : answers q = .ok package)
      (hd : package.type? name = some d)
      (hleaf : .named (.declared r other) ∈ d.asType.leaves ++ d.underlying.leaves) :
      Exposed sc answers r other
  /-- It is in the type of a constant. -/
  | ofConst {q name r other : String} {package : Package} {c : ConstDef}
      (h : Exposed sc answers q name) (hq : answers q = .ok package)
      (hc : package.constant? name = some c)
      (hleaf : .named (.declared r other) ∈ c.type.leaves) : Exposed sc answers r other

def Meets (sc : Scope) (answers : Answers) (q name : String) : Prop :=
  q = sc.path ∨ sc.Exposed answers q name

end Scope

theorem GoType.within_of_names {known : String -> String -> Prop} {type : GoType}
    (h : forall q name, .named (.declared q name) ∈ type.leaves -> known q name) :
    type.Within True known := by
  intro leaf hleaf
  unfold Allowed
  split
  · trivial
  · exact h _ _ hleaf
  · trivial

namespace Scope

/-!
# Twin scopes share what is exposed
-/

section Sharing

variable {sc sc' : Scope} {answers answers' : Answers} {q name : String} {package : Package}

theorem Exposed.within_type {d : TypeDef} (h : sc.Exposed answers q name)
    (hq : answers q = .ok package) (hd : package.type? name = some d) :
    d.asType.Within True (sc.Meets answers) ∧ d.underlying.Within True (sc.Meets answers) :=
  ⟨GoType.within_of_names fun _ _ hleaf => Or.inr (h.ofType hq hd (List.mem_append_left _ hleaf)),
    GoType.within_of_names fun _ _ hleaf => Or.inr (h.ofType hq hd (List.mem_append_right _ hleaf))⟩

theorem Exposed.within_const {c : ConstDef} (h : sc.Exposed answers q name)
    (hq : answers q = .ok package) (hc : package.constant? name = some c) :
    c.type.Within True (sc.Meets answers) :=
  GoType.within_of_names fun _ _ hleaf => Or.inr (h.ofConst hq hc hleaf)

end Sharing

theorem twinBindings_cases {shown : String -> String -> Prop} {answers answers' : Answers}
    (hlike : answers.Like shown answers') {b b' : Binding}
    (h : TwinBindings answers answers' b b') :
    b'.path = b.path ∧ b'.isUnsafe = b.isUnsafe ∧
      ((b.package = none ∧ b'.package = none) ∨
        exists p p', b.package = some p ∧ b'.package = some p' ∧ answers b.path = .ok p ∧
          p.Like (shown b.path) p') := by
  obtain ⟨path, rfl, rfl⟩ := h
  refine ⟨rfl, rfl, ?_⟩
  unfold Item.bindingFor
  dsimp only
  split
  · exact Or.inl ⟨rfl, rfl⟩
  · rcases hlike path with ⟨p, p', hp, hp', hboth⟩ | ⟨cause, hcause, hcause'⟩
    · rw [hp, hp']
      exact Or.inr ⟨p, p', rfl, rfl, rfl, hboth⟩
    · rw [hcause, hcause']
      exact Or.inl ⟨rfl, rfl⟩

theorem answer_of_twinBindings {shown : String -> String -> Prop} {answers answers' : Answers}
    (hlike : answers.Like shown answers') {b b' : Binding} {package : Package}
    (h : TwinBindings answers answers' b b') (hpackage : b.package = some package) :
    answers b.path = .ok package := by
  obtain ⟨_, _, ⟨hnone, _⟩ | ⟨p, _, hp, _, hanswer, _⟩⟩ := twinBindings_cases hlike h
  · cases hpackage.symm.trans hnone
  · cases hpackage.symm.trans hp
    exact hanswer

theorem bind_twinBindings {shown : String -> String -> Prop} {answers answers' : Answers}
    {β : Type} {find find' : Package -> Option β} (hlike : answers.Like shown answers')
    {b b' : Binding} (h : TwinBindings answers answers' b b')
    (hfind : forall p p', p.Like (shown b.path) p' -> find' p' = find p) :
    b'.package.bind find' = b.package.bind find := by
  obtain ⟨_, _, ⟨hnone, hnone'⟩ | ⟨p, p', hp, hp', _, hboth⟩⟩ := twinBindings_cases hlike h
  · rw [hnone, hnone', Option.bind_none, Option.bind_none]
  · rw [hp, hp', Option.bind_some, Option.bind_some, hfind p p' hboth]

section Imports

variable {sc sc' : Scope} {answers answers' : Answers}
  (h : sc.Twins answers answers' sc') (hlike : answers.Like (sc.Exposed answers) answers')

include h

theorem Twins.checkImports : sc'.checkImports = sc.checkImports := by
  have hfiles : List.Forall₂ _ sc.files.entries sc'.files.entries := h.files
  unfold Scope.checkImports
  generalize sc.files.entries = files at hfiles ⊢
  generalize sc'.files.entries = files' at hfiles ⊢
  induction hfiles with
  | nil => rfl
  | @cons e e' files files' he hrest ih =>
      obtain ⟨file, f⟩ := e
      obtain ⟨file', f'⟩ := e'
      obtain ⟨hfile, hf⟩ := he
      have hcheck : checkImport file' f' = checkImport file f := by
        funext i
        unfold checkImport
        rw [show file' = file from hfile, show f'.qualifiers = f.qualifiers from hf.qualifiers]
      have hnamed : f'.named.forM (checkImport file' f') = f.named.forM (checkImport file f) := by
        rw [hcheck, show f'.named = f.named from hf.named]
      exact congrArg₂ (fun m n => m >>= fun _ => n) hnamed ih

theorem Twins.import? (file label : String) :
    Option.Rel (TwinBindings answers answers') (sc.import? file label) (sc'.import? file label) :=
  (h.fileScope file).imports.get? label

include hlike

theorem Twins.answer_of_import {file label : String} {b : Binding} {package : Package}
    (hb : sc.import? file label = some b) (hpackage : b.package = some package) :
    answers b.path = .ok package := by
  have himport := h.import? file label
  rw [hb] at himport
  generalize sc'.import? file label = found at himport
  cases himport with
  | some htwin => exact answer_of_twinBindings hlike htwin hpackage

theorem Twins.answer_of_dot {file : String} {b : Binding} {package : Package}
    (hb : b ∈ (sc.fileScope file).dots) (hpackage : b.package = some package) :
    answers b.path = .ok package := by
  obtain ⟨b', _, htwin⟩ := exists_mem_right (h.fileScope file).dots hb
  exact answer_of_twinBindings hlike htwin hpackage

theorem Twins.supplies : sc.Supplies (sc.Meets answers) sc.Spells where
  own _ := Or.inl rfl
  dotType file name type htype := by
    obtain ⟨hexported, b, package, d, hb, hpackage, hd, rfl⟩ := exists_of_dotType htype
    exact ((Exposed.exported hexported).within_type (h.answer_of_dot hlike hb hpackage) hd).1
  opaqueType _ _ _ _ _ _ _ hexported _ := Or.inr (.exported hexported)
  importedType file label b package name d hb hpackage hexported hd :=
    ((Exposed.exported hexported).within_type (h.answer_of_import hlike hb hpackage) hd).1
  dotConst file name x hlocal hs hx := by
    obtain ⟨b, package, c, hb, hpackage, hc, rfl⟩ := exists_of_dotConst hx
    exact (Exposed.dotted hs hlocal hb).within_const (h.answer_of_dot hlike hb hpackage) hc
  qualifiedConst file label name x hs hx := by
    obtain ⟨b, package, c, hb, hpackage, hc, rfl⟩ := exists_of_qualifiedConst hx
    exact (Exposed.qualified hs hb).within_const (h.answer_of_import hlike hb hpackage) hc
  qualifiedTarget file label name type hs htype := by
    obtain ⟨b, package, hb, hpackage, hfound⟩ := exists_of_qualifiedTarget htype
    rcases hfound with ⟨_, hexported, rfl⟩ | ⟨d, hd, rfl⟩
    · exact GoType.within_declared_iff.mpr (Or.inr (.exported hexported))
    · exact ((Exposed.qualified hs hb).within_type (h.answer_of_import hlike hb hpackage) hd).1

theorem Twins.dotType (file name : String) : sc'.dotType? file name = sc.dotType? file name := by
  unfold dotType?
  split
  · next hexported =>
      refine findSome?_eq_of_forall₂ (h.fileScope file).dots fun b b' _ htwin => ?_
      refine bind_twinBindings hlike htwin fun p p' hboth => ?_
      rw [hboth.isOpaque, hboth.type? name (.exported hexported)]
  · rfl

theorem Twins.dotConst {file name : String} (hlocal : sc.constIndex? name = none)
    (hs : sc.Spells file (.plain name)) : sc'.dotConst? file name = sc.dotConst? file name := by
  refine findSome?_eq_of_forall₂ (h.fileScope file).dots fun b b' hb htwin => ?_
  refine bind_twinBindings hlike htwin fun p p' hboth => ?_
  rw [hboth.constant? name (.dotted hs hlocal hb)]

theorem Twins.qualifiedType (file : String) (label name : Source.Extent) :
    sc'.qualifiedType file label name = sc.qualifiedType file label name := by
  have himport := h.import? file label.text
  unfold Scope.qualifiedType
  generalize sc.import? file label.text = found at himport ⊢
  generalize sc'.import? file label.text = found' at himport ⊢
  cases himport with
  | none => rfl
  | some htwin =>
      obtain ⟨_, hkind, hpackages⟩ := twinBindings_cases hlike htwin
      dsimp only
      rw [hkind]
      rcases hpackages with ⟨hnone, hnone'⟩ | ⟨p, p', hp, hp', _, hboth⟩
      · rw [hnone, hnone']
      · rw [hp, hp']
        dsimp only
        by_cases hexported : isExported name.text = true
        · rw [hboth.isOpaque, hboth.path, hboth.type? name.text (.exported hexported)]
        · simp only [hexported]
          rfl

theorem Twins.qualifiedConst {file label name : String}
    (hs : sc.Spells file (.qualified label name)) :
    sc'.qualifiedConst file label name = sc.qualifiedConst file label name := by
  have himport := h.import? file label
  unfold Scope.qualifiedConst
  generalize hb : sc.import? file label = found at himport ⊢
  generalize sc'.import? file label = found' at himport ⊢
  cases himport with
  | none => rfl
  | some htwin =>
      obtain ⟨_, _, ⟨hnone, hnone'⟩ | ⟨p, p', hp, hp', _, hboth⟩⟩ :=
        twinBindings_cases hlike htwin
      · dsimp only
        rw [hnone, hnone']
      · dsimp only
        rw [hp, hp']
        dsimp only
        rw [hboth.isOpaque, hboth.path, hboth.constant? name (.qualified hs hb)]

theorem Twins.qualifiedTarget {file label name : String}
    (hs : sc.Spells file (.qualified label name)) :
    sc'.qualifiedTarget? file label name = sc.qualifiedTarget? file label name := by
  have himport := h.import? file label
  unfold qualifiedTarget?
  generalize hb : sc.import? file label = found at himport ⊢
  generalize sc'.import? file label = found' at himport ⊢
  cases himport with
  | none => rfl
  | some htwin =>
      rw [Option.bind_some, Option.bind_some]
      refine bind_twinBindings hlike htwin fun p p' hboth => ?_
      rw [hboth.isOpaque, hboth.path, hboth.type? name (.qualified hs hb)]

theorem Twins.shares : sc.Shares sc' sc.Spells where
  path := (congrArg Scope.path h.same :)
  types := (congrArg Scope.types h.same :)
  consts := (congrArg Scope.consts h.same :)
  others := (congrArg Scope.others h.same :)
  methods := (congrArg Scope.methods h.same :)
  importPaths := (congrArg Scope.importPaths h.same :)
  checkImports := h.checkImports
  dotType := h.dotType hlike
  qualifiedType := h.qualifiedType hlike
  dotConst _ _ := h.dotConst hlike
  qualifiedConst _ _ _ := h.qualifiedConst hlike
  qualifiedTarget _ _ _ := h.qualifiedTarget hlike

end Imports

end Scope

end GoAtlas
