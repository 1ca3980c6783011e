import GoAtlas.Proofs.Check.Rearranged

/-!
# Independence of the order of declarations

The scopes of a package and of a rearranged one declare the same.  A second pass without hard
complaints finds what follows from the values of all declarations, and so it finds the same in
both: whatever it begins with, it meets every value, and it meets a declaration that needs itself
only if there is one.
-/

namespace GoAtlas

namespace Item

variable {answers : Answers} {items : List Item}

theorem name?_of_const? {i : Item} {d : ConstDecl} (h : i.const? = some d) :
    i.name? = some d.name := by
  cases i with
  | claim file x what =>
      cases what with
      | const spec type expr iota =>
          simp only [const?] at h
          split at h
          · cases h
          · next hname =>
              cases h
              exact if_neg hname
      | type spec => cases h
      | other => cases h
  | _ => cases h

theorem sublist_constNames (items : List Item) :
    ((items.filterMap const?).map ConstDecl.name).Sublist (items.filterMap name?) := by
  induction items with
  | nil => exact List.Sublist.refl _
  | cons i rest ih =>
      cases hconst : i.const? with
      | some d =>
          rw [List.filterMap_cons_some hconst, List.filterMap_cons_some (name?_of_const? hconst)]
          exact ih.cons_cons _
      | none =>
          rw [List.filterMap_cons_none hconst]
          cases hname : i.name? with
          | none =>
              rw [List.filterMap_cons_none hname]
              exact ih
          | some name =>
              rw [List.filterMap_cons_some hname]
              exact ih.cons _

end Item

/-!
# What rearranged packages declare
-/

namespace Collection
namespace Reflects

variable {answers : Answers} {items items' : List Item} {c c' : Collection}

theorem told (h : Reflects answers items c) : c.progress.Told answers := by
  intro q known hknown
  rcases h.packages q known hknown with ⟨package, hanswer, rfl⟩
  rw [hanswer]
  rfl

theorem nodup_consts (h : Reflects answers items c) (hitems : Item.Faultless answers items) :
    (c.scope.consts.map ConstDecl.name).Nodup := by
  rw [h.consts]
  exact hitems.names.sublist (Item.sublist_constNames items)

section Moving

variable (h : Reflects answers items c) (h' : Reflects answers items' c')
  (hmoved : Arranged Item.Moved items items')

include h h' hmoved

theorem methods_moved : Arranged MethodSource.Moved c.scope.methods c'.scope.methods := by
  rw [h.methods, h'.methods]
  exact hmoved.filterMap fun _ _ hi => hi.method?

theorem consts_moved :
    Arranged (fun d d' => exists f, Source.KeepsText f ∧ d' = ConstDecl.relocate f d)
      c.scope.consts c'.scope.consts := by
  rw [h.consts, h'.consts]
  exact hmoved.filterMap fun _ _ hi => hi.const?

theorem declared {name : String} {d : TypeDecl} (hd : c.scope.types.get? name = some d) :
    exists f, Source.KeepsText f ∧ c'.scope.types.get? name = some (d.relocate f) := by
  have htypes := hmoved.filterMap fun _ _ hi => hi.type?
  rcases htypes.mem_right ((h.types name d).mp hd) with ⟨⟨name', d'⟩, hmem, hname, f, hf, hd'⟩
  cases hname
  cases hd'
  exact ⟨f, hf, (h'.types name _).mpr hmem⟩

theorem undeclared {name : String} (hnone : c.scope.types.get? name = none) :
    c'.scope.types.get? name = none := by
  have htypes := hmoved.filterMap fun _ _ hi => hi.type?
  cases hd' : c'.scope.types.get? name with
  | none => rfl
  | some d' =>
      rcases htypes.mem_left ((h'.types name d').mp hd') with ⟨⟨_, d⟩, hmem, rfl, _⟩
      cases hnone.symm.trans ((h.types name d).mpr hmem)

theorem isConst_eq (name : String) : c'.scope.isConst name = c.scope.isConst name := by
  have hnames : (c.scope.consts.map ConstDecl.name).Perm (c'.scope.consts.map ConstDecl.name) := by
    refine (consts_moved h h' hmoved).map_perm ?_
    rintro d _ ⟨f, _, rfl⟩
    rfl
  have hiff : forall s : Scope, s.isConst name = true ↔ name ∈ s.consts.map ConstDecl.name := by
    intro s
    unfold Scope.isConst
    simp only [List.any_eq_true, List.mem_map, beq_iff_eq]
  rw [Bool.eq_iff_iff, hiff, hiff]
  exact hnames.mem_iff.symm

theorem others_eq (name : String) :
    c'.scope.others.contains name = c.scope.others.contains name := by
  have hothers : (items.filterMap Item.other?).Perm (items'.filterMap Item.other?) :=
    (hmoved.filterMap fun _ _ hi => hi.other?).perm_of_eq
  rw [Bool.eq_iff_iff, List.contains_iff_mem, List.contains_iff_mem, h.others, h'.others]
  exact hothers.mem_iff.symm

theorem corresponds (hpath : c'.scope.path = c.scope.path)
    (hview : forall file,
      FileScope.SameView (Item.visible answers file items) (Item.visible answers file items'))
    (hnodup : (c'.scope.consts.map ConstDecl.name).Nodup) :
    c.scope.Corresponds c'.scope where
  path := hpath
  types name := by
    cases hd : c.scope.types.get? name with
    | none => rw [undeclared h h' hmoved hd]
    | some d =>
        rcases declared h h' hmoved hd with ⟨f, _, hd'⟩
        rw [hd']
        rfl
  isConst := isConst_eq h h' hmoved
  others := others_eq h h' hmoved
  imports file label := by
    unfold Scope.import?
    rw [h.files, h'.files, (hview file).imports]
  dots file := by
    rw [h.files, h'.files, (hview file).dots]
  declared _ _ hd := declared h h' hmoved hd
  constant name d hd := by
    rcases Scope.mem_of_const? hd with ⟨hmem, rfl⟩
    rcases (consts_moved h h' hmoved).mem_right hmem with ⟨_, hmem', f, hf, rfl⟩
    exact ⟨f, hf, Scope.const?_of_mem hnodup hmem'⟩

end Moving

end Reflects
end Collection

/-!
# The second pass
-/

namespace Scope

section Defining

variable {sc other : Scope} {answers : Answers} {v : Values} {name : String}

theorem TrackedLinks.steps {T : Tracking} {links links' : Links}
    (h : TrackedLinks T sc sc links links') (hnodup : (sc.consts.map ConstDecl.name).Nodup) :
    StepLinks T sc links links' where
  aliased := h.aliased
  underlying := h.underlying
  const i d hd :=
    have hi := constIndex?_of_get hnodup hd
    h.const d.name i i hi hi

/-- A second pass without hard complaints finds what follows from the values. -/
theorem findings_of_definitions (hclosed : (sc.refine answers v).Within v)
    (hnodup : (sc.consts.map ConstDecl.name).Nodup) {p : Progress} (htold : p.Told answers)
    (hfaithful : sc.Faithful v p)
    (hclean : ¬ Complained ((sc.definitions name).outcome answers p).2.errors) :
    sc.findings answers v name = some ((sc.definitions name).outcome answers p).1 := by
  have hT := Tracking.lawful_clean answers (sc.ofMemory_faithful v) Progress.ofMemory_true
  have hlinks := (tracks_linksWithin hclosed (Ample.links sc)).steps hnodup
  rw [definitions_eq] at hclean ⊢
  rw [← clean?_definitionsWith]
  exact (clean_of_body (tracks_definitionsWith hT hlinks name) htold hfaithful hclean).1

/-- What follows from all values of a scope is found in a scope that declares the same, and no
hard complaint comes up. -/
theorem definitions_of_findings (hscope : Corresponds sc other) {top : Nat}
    (htop : forall level, (sc.found answers level).Within (sc.found answers top))
    (hnodup : (other.consts.map ConstDecl.name).Nodup) {p : Progress} (htold : p.Told answers)
    (hfaithful : other.Faithful (sc.found answers top) p) (hclean : ¬ Complained p.errors)
    {found : CheckedPackage}
    (hfound : other.findings answers (sc.found answers top) name = some found) :
    ((other.definitions name).outcome answers p).1 = found ∧
      ¬ Complained ((other.definitions name).outcome answers p).2.errors := by
  have hT := Tracking.lawful_clean answers Progress.ofMemory_true
    (other.ofMemory_faithful (sc.found answers top))
  have hlinks := (tracks_found hscope htop top (Ample.links other)
    (List.forall_mem_nil _)).steps hnodup
  rw [← clean?_definitionsWith] at hfound
  rw [definitions_eq]
  have hend := body_of_clean (tracks_definitionsWith hT hlinks name) hfound htold hclean hfaithful
  exact ⟨hend.1, hend.2.2.1⟩

end Defining

end Scope

/-!
# The whole check
-/

section Checking

variable {answers : Answers} {p p' : LoadedPackage}

theorem complained_collect (h : Complained ((collect p).under answers).errors) :
    Complained ((checkGo p).under answers).errors := by
  have hkept := (((collect p).under answers).scope.steady_definitions p.name answers
    ((collect p).under answers).progress).errors
  rw [under_checkGo]
  exact h.of_prefix hkept

theorem faultless_of_clean (h : ¬ Complained ((checkGo p).under answers).errors) :
    Item.Faultless answers p.items := by
  have hfirst := mt complained_collect h
  rw [under_collect_eq] at hfirst
  rcases Collection.reflects_or_complained p answers p.items with ⟨hitems, _⟩ | ⟨_, hcomplained⟩
  · exact hitems
  · exact absurd hcomplained hfirst

theorem reflects_of_faultless (h : Item.Faultless answers p.items) :
    Collection.Reflects answers p.items ((collect p).under answers) := by
  rw [under_collect_eq]
  rcases Collection.reflects_or_complained p answers p.items with ⟨_, hreflects⟩ | ⟨hnot, _⟩
  · exact hreflects
  · exact absurd h hnot

/-- Under the same answers a rearranged package has no hard complaint either, and the same is
found. -/
theorem under_checkGo_rearranged (h : p.Rearranged p')
    (hclean : ¬ Complained ((checkGo p).under answers).errors) :
    ¬ Complained ((checkGo p').under answers).errors ∧
      ((checkGo p').under answers).package.typeNamed =
        ((checkGo p).under answers).package.typeNamed ∧
      ((checkGo p').under answers).package.constNamed =
        ((checkGo p).under answers).package.constNamed := by
  have hfaultless := faultless_of_clean hclean
  have hfaultless' := hfaultless.arranged h.items
  have hreflects := reflects_of_faultless hfaultless
  have hreflects' := reflects_of_faultless hfaultless'
  have hnodup := hreflects.nodup_consts hfaultless
  have hnodup' := hreflects'.nodup_consts hfaultless'
  rw [under_checkGo] at hclean
  rw [under_checkGo, under_checkGo]
  unfold definedUnder at hclean ⊢
  rw [h.name]
  have hpath :
      ((collect p').under answers).scope.path = ((collect p).under answers).scope.path := by
    rw [Collection.path_collect, Collection.path_collect, h.importPath]
  have hscope := hreflects.corresponds hreflects' h.items hpath
    (Item.sameView_visible h answers) hnodup'
  generalize (collect p).under answers = c at *
  generalize (collect p').under answers = c' at *
  rcases c.scope.exists_top answers with ⟨top, htop⟩
  have hfindings := Scope.findings_of_definitions (htop (top + 1)) hnodup hreflects.told
    (c.scope.faithful_blank _ _ _) hclean
  rcases Scope.findings_corresponds hscope (hreflects.methods_moved hreflects' h.items) hnodup
    hnodup' hfindings with ⟨found, hfound, htypes, hconsts⟩
  have hstart : ¬ Complained c'.progress.errors := by
    rw [show c'.progress.errors = [] from hreflects'.clean]
    rintro ⟨e, he, _⟩
    cases he
  rcases Scope.definitions_of_findings hscope htop hnodup' hreflects'.told
    (c'.scope.faithful_blank _ _ _) hstart hfound with ⟨hresult, hend⟩
  refine ⟨hend, ?_, ?_⟩
  · exact (congrArg CheckedPackage.typeNamed hresult).trans htypes
  · exact (congrArg CheckedPackage.constNamed hresult).trans hconsts

theorem CheckOutcome.firstHard?_eq_none_iff {o : CheckOutcome} :
    o.firstHard? = none ↔ ¬ Complained o.errors := by
  unfold CheckOutcome.firstHard? Complained
  simp

/-- A check does not depend on the order of declarations or files.  If a package has no hard
complaint, a rearranged one has none, and it has the same types and constants, as long as
importers answer each path in the same way. -/
theorem checkGo_rearranged {σ σ' : Type} {importer : String -> σ -> Answer × σ}
    {importer' : String -> σ' -> Answer × σ'} (himporter : forall q s, (importer q s).1 = answers q)
    (himporter' : forall q s, (importer' q s).1 = answers q) (h : p.Rearranged p') (s : σ) (s' : σ')
    (hclean : ((checkGo p).run importer s).1.firstHard? = none) :
    ((checkGo p').run importer' s').1.firstHard? = none ∧
      ((checkGo p').run importer' s').1.package.typeNamed =
        ((checkGo p).run importer s).1.package.typeNamed ∧
      ((checkGo p').run importer' s').1.package.constNamed =
        ((checkGo p).run importer s).1.package.constNamed := by
  rw [Inquiry.run_of_answers himporter, CheckOutcome.firstHard?_eq_none_iff] at hclean
  rw [Inquiry.run_of_answers himporter, Inquiry.run_of_answers himporter',
    CheckOutcome.firstHard?_eq_none_iff]
  exact under_checkGo_rearranged h hclean

end Checking

def Source.Extent.onLine (line : Nat) (text : String) : Source.Extent :=
  ⟨0, 0, line, text⟩

def lengthDecl (line : Nat) : Source.Decl :=
  .consts [⟨.onLine line "N = 2", [.onLine line "N"], none, some [.int (.onLine line "2")]⟩]

def arrayDecl (line : Nat) : Source.Decl :=
  .types [⟨.onLine line "A [N]int", .onLine line "A", [], false,
    .array (.onLine line "[N]int") (.ident (.onLine line "N")) (.name (.onLine line "int"))⟩]

def arrayPackage (files : List String) (decls : List Source.Decl) : LoadedPackage :=
  ⟨⟨"/p"⟩, "p", "p", files,
    [("a.go", ⟨[], ⟨decls, [], []⟩⟩), ("b.go", ⟨[], ⟨[.vars [.onLine 1 "V"]], [], []⟩⟩)]⟩

def refusal (path : String) (count : Nat) : Answer × Nat :=
  (.error (.packageNotFound path), count + 1)

theorem rearranged_arrayPackage :
    (arrayPackage ["a.go", "b.go"] [arrayDecl 1, lengthDecl 2]).Rearranged
      (arrayPackage ["b.go", "a.go"] [lengthDecl 1, arrayDecl 2]) where
  importPath := rfl
  name := rfl
  files := List.Perm.swap _ _ _
  sources name hname := by
    have hmoved : forall line, Source.KeepsText fun x => { x with line := line } :=
      fun _ _ => rfl
    change name ∈ ["a.go", "b.go"] at hname
    rcases List.mem_pair.mp hname with rfl | rfl
    · refine Option.Rel.some ⟨rfl, List.Forall₂.nil, [lengthDecl 2, arrayDecl 1], ?_, ?_⟩
      · exact List.Perm.swap _ _ _
      · exact .cons ⟨_, hmoved 1, rfl⟩ (.cons ⟨_, hmoved 2, rfl⟩ .nil)
    · refine Option.Rel.some ⟨rfl, List.Forall₂.nil, ?_⟩
      exact Arranged.of_forall₂ (.cons ⟨id, Scope.keepsText_id, rfl⟩ .nil)

theorem checkGo_rearranged_arrayPackage :
    ((checkGo (arrayPackage ["a.go", "b.go"] [arrayDecl 1, lengthDecl 2])).run
        refusal 0).1.firstHard? = none ∧
      ((checkGo (arrayPackage ["b.go", "a.go"] [lengthDecl 1, arrayDecl 2])).run
        refusal 7).1.firstHard? = none ∧
      ((checkGo (arrayPackage ["b.go", "a.go"] [lengthDecl 1, arrayDecl 2])).run
          refusal 7).1.package.typeNamed =
        ((checkGo (arrayPackage ["a.go", "b.go"] [arrayDecl 1, lengthDecl 2])).run
          refusal 0).1.package.typeNamed ∧
      ((checkGo (arrayPackage ["b.go", "a.go"] [lengthDecl 1, arrayDecl 2])).run
          refusal 7).1.package.constNamed =
        ((checkGo (arrayPackage ["a.go", "b.go"] [arrayDecl 1, lengthDecl 2])).run
          refusal 0).1.package.constNamed := by
  have hanswers : forall q s, (refusal q s).1 = .error (.packageNotFound q) := fun _ _ => rfl
  exact ⟨rfl, checkGo_rearranged hanswers hanswers rearranged_arrayPackage 0 7 rfl⟩

end GoAtlas
