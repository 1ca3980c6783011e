import GoAtlas.Proofs.Check.Collected
import GoAtlas.Proofs.Check.Yields
import Mathlib.Data.List.Induction

/-!
# First passes without complaints

The first pass complains about faults, about imports that fail and about names that are claimed
twice, and about nothing else.  Without a complaint, all it collects can be read off the items in
order.
-/

namespace GoAtlas
namespace FileScope

def add (f : FileScope) (label : Option Source.ImportLabel) (b : Binding) (line : Nat) :
    FileScope :=
  let named := fun name =>
    { f with imports := f.imports.insert name b, named := f.named ++ [(name, b.path, line)] }
  match label with
  | some .dot => { f with dots := f.dots ++ [b] }
  | some .blank => f
  | some (.named x) => named x.text
  | none => named (Collect.defaultLabel b)

end FileScope

namespace Item

/-!
# What items say
-/

def name? : Item -> Option String
  | claim _ x _ => if x.text == "_" then none else some x.text
  | _ => none

def type? : Item -> Option (String × TypeDecl)
  | claim file x (.type spec) => if x.text == "_" then none else some (x.text, ⟨file, spec⟩)
  | _ => none

def const? : Item -> Option ConstDecl
  | claim file x (.const spec type expr iota) =>
      if x.text == "_" then none else some ⟨x.text, file, spec, type, expr, iota⟩
  | _ => none

def other? : Item -> Option String
  | claim _ x .other => if x.text == "_" then none else some x.text
  | _ => none

def method? : Item -> Option MethodSource
  | method m => some m
  | _ => none

def bindingFor (answers : Answers) (path : String) : Binding :=
  ⟨path, if path == "unsafe" then none else (answers path).toOption, path == "unsafe"⟩

def shows (answers : Answers) (file : String) (f : FileScope) : Item -> FileScope
  | opening name qualifiers => if name = file then FileScope.ofQualifiers qualifiers else f
  | binding name line label path =>
      if name = file then f.add label (bindingFor answers path) line else f
  | _ => f

def visible (answers : Answers) (file : String) (items : List Item) : FileScope :=
  items.foldl (shows answers file) (FileScope.ofQualifiers [])

/-!
# Complaints
-/

def Fits (answers : Answers) (before : List Item) : Item -> Prop
  | binding _ _ _ path => path = "unsafe" ∨ exists package, answers path = .ok package
  | fault _ _ _ => False
  | claim _ x _ => x.text = "_" ∨ x.text ∉ before.filterMap name?
  | _ => True

structure Faultless (answers : Answers) (items : List Item) : Prop where
  sound : forall file line complaint, fault file line complaint ∉ items
  bound : forall file line label path, binding file line label path ∈ items ->
    path = "unsafe" ∨ exists package, answers path = .ok package
  names : (items.filterMap name?).Nodup

variable {answers : Answers} {items : List Item} {i : Item}

theorem name?_claim (file : String) (x : Source.Extent) (what : Claim) :
    (claim file x what).name? = if x.text = "_" then none else some x.text := by
  simp only [name?, beq_iff_eq]

theorem nodup_names_snoc :
    ((items ++ [i]).filterMap name?).Nodup ↔
      (items.filterMap name?).Nodup ∧ forall name, i.name? = some name ->
        name ∉ items.filterMap name? := by
  rw [List.filterMap_append, List.nodup_append]
  cases hname : i.name? with
  | none =>
      rw [List.filterMap_cons_none hname, List.filterMap_nil]
      refine and_congr_right fun _ => ⟨fun _ _ h => (by cases h), fun _ => ?_⟩
      exact ⟨List.nodup_nil, fun _ _ _ h => absurd h List.not_mem_nil⟩
  | some name =>
      rw [List.filterMap_cons_some hname, List.filterMap_nil]
      refine and_congr_right fun _ => ⟨fun h other hother hmem => ?_, fun h => ?_⟩
      · cases hother
        exact h.2 name hmem name List.mem_cons_self rfl
      · refine ⟨List.nodup_singleton _, fun a ha b hb heq => ?_⟩
        rw [List.mem_singleton.mp hb] at heq
        exact h name rfl (heq ▸ ha)

theorem faultless_nil : Faultless answers [] :=
  ⟨fun _ _ _ => List.not_mem_nil, fun _ _ _ _ h => absurd h List.not_mem_nil, List.nodup_nil⟩

theorem faultless_snoc_iff :
    Faultless answers (items ++ [i]) ↔ Faultless answers items ∧ Fits answers items i := by
  constructor
  · intro h
    rcases nodup_names_snoc.mp h.names with ⟨hnames, hnew⟩
    refine ⟨⟨?_, ?_, hnames⟩, ?_⟩
    · exact fun file line complaint hmem =>
        h.sound file line complaint (List.mem_append_left _ hmem)
    · exact fun file line label path hmem =>
        h.bound file line label path (List.mem_append_left _ hmem)
    · have hmem : i ∈ items ++ [i] := List.mem_append_right _ List.mem_cons_self
      cases i with
      | opening file qualifiers => trivial
      | binding file line label path => exact h.bound file line label path hmem
      | fault file line complaint => exact h.sound file line complaint hmem
      | claim file x what =>
          rw [name?_claim] at hnew
          by_cases hblank : x.text = "_"
          · exact Or.inl hblank
          · exact Or.inr (hnew x.text (if_neg hblank))
      | method m => trivial
  · rintro ⟨h, hfits⟩
    refine ⟨?_, ?_, nodup_names_snoc.mpr ⟨h.names, ?_⟩⟩
    · intro file line complaint hmem
      rcases List.mem_append.mp hmem with hold | hnew
      · exact h.sound file line complaint hold
      · cases List.mem_singleton.mp hnew
        exact hfits
    · intro file line label path hmem
      rcases List.mem_append.mp hmem with hold | hnew
      · exact h.bound file line label path hold
      · cases List.mem_singleton.mp hnew
        exact hfits
    · intro name hname
      cases i with
      | claim file x what =>
          rw [name?_claim] at hname
          split at hname
          · cases hname
          · next hblank =>
              cases hname
              exact hfits.resolve_left hblank
      | _ => cases hname

end Item

namespace Collection

/-!
# What is collected
-/

structure Reflects (answers : Answers) (items : List Item) (c : Collection) : Prop where
  clean : c.errors = []
  claims : forall name, c.scope.claims name = true ↔ name ∈ items.filterMap Item.name?
  types : forall name d, c.scope.types.get? name = some d ↔ (name, d) ∈ items.filterMap Item.type?
  consts : c.scope.consts = items.filterMap Item.const?
  others : c.scope.others = items.filterMap Item.other?
  methods : c.scope.methods = items.filterMap Item.method?
  packages : forall q known, c.packages.get? q = some known ->
    exists package, answers q = .ok package ∧ known = some package
  files : forall file, c.scope.fileScope file = Item.visible answers file items

section Reflecting

variable {answers : Answers} {items : List Item} {c : Collection}

theorem fileScope_addBinding (file other : String) (label : Option Source.ImportLabel)
    (b : Binding) (line : Nat) (c : Collection) :
    (c.addBinding file label b line).scope.fileScope other =
      if other = file then (c.scope.fileScope file).add label b line
      else c.scope.fileScope other := by
  unfold addBinding
  split
  · exact c.scope.fileScope_updateFile file other _
  · split
    · next hsame => rw [hsame]; rfl
    · rfl
  · exact c.scope.fileScope_updateFile file other _
  · exact c.scope.fileScope_updateFile file other _

theorem errors_binding {file path : String} {line : Nat} {label : Option Source.ImportLabel} :
    ((Item.binding file line label path).apply answers c).errors =
      (c.bound answers file line path).errors :=
  congrArg Ledger.errors ((c.bound answers file line path).addBinding_spec file line label
    (c.bindingOf answers path)).1

theorem claims_iff {s : Scope} {name : String} :
    s.claims name = true ↔ (exists d, s.types.get? name = some d) ∨
      name ∈ s.consts.map ConstDecl.name ∨ name ∈ s.others := by
  unfold Scope.claims Scope.isConst
  rw [Bool.or_eq_true, Bool.or_eq_true, Table.contains_iff, or_assoc, List.contains_iff_mem,
    List.any_eq_true, List.mem_map]
  simp only [beq_iff_eq]

theorem claims_addClaim {file name other : String} {what : Claim} {s : Scope} :
    (addClaim file name what s).claims other = true ↔ s.claims other = true ∨ other = name := by
  rw [claims_iff, claims_iff]
  cases what with
  | type spec =>
      simp only [addClaim, Table.get?_insert]
      by_cases hsame : other = name
      · simp [hsame]
      · simp [hsame]
  | const spec type expr iota =>
      simp only [addClaim, List.map_append, List.mem_append, List.map_cons, List.map_nil,
        List.mem_singleton]
      tauto
  | other =>
      simp only [addClaim, List.mem_append, List.mem_singleton]
      tauto

theorem visible_snoc (file : String) (i : Item) :
    Item.visible answers file (items ++ [i]) =
      i.shows answers file (Item.visible answers file items) := by
  unfold Item.visible
  rw [List.foldl_append]
  rfl

theorem filterMap_snoc_none {β : Type} {g : Item -> Option β} {i : Item} (h : g i = none) :
    (items ++ [i]).filterMap g = items.filterMap g := by
  rw [List.filterMap_append, List.filterMap_cons_none h, List.filterMap_nil, List.append_nil]

theorem filterMap_snoc_some {β : Type} {g : Item -> Option β} {i : Item} {b : β}
    (h : g i = some b) : (items ++ [i]).filterMap g = items.filterMap g ++ [b] := by
  rw [List.filterMap_append, List.filterMap_cons_some h, List.filterMap_nil]

namespace Reflects

theorem snoc (h : Reflects answers items c) {i : Item} {d : Collection} (hclean : d.errors = [])
    (hscope : exists files paths, d.scope = { c.scope with files := files, importPaths := paths })
    (hname : i.name? = none) (htype : i.type? = none) (hconst : i.const? = none)
    (hother : i.other? = none) (hmethod : i.method? = none)
    (hpackages : forall q known, d.packages.get? q = some known ->
      exists package, answers q = .ok package ∧ known = some package)
    (hfiles : forall file, d.scope.fileScope file =
      i.shows answers file (c.scope.fileScope file)) : Reflects answers (items ++ [i]) d where
  clean := hclean
  claims name := by
    rcases hscope with ⟨files, paths, hscope⟩
    rw [filterMap_snoc_none hname, ← h.claims name, hscope]
    rfl
  types name t := by
    rcases hscope with ⟨files, paths, hscope⟩
    rw [filterMap_snoc_none htype, ← h.types name t, hscope]
  consts := by
    rcases hscope with ⟨files, paths, hscope⟩
    rw [filterMap_snoc_none hconst, ← h.consts, hscope]
  others := by
    rcases hscope with ⟨files, paths, hscope⟩
    rw [filterMap_snoc_none hother, ← h.others, hscope]
  methods := by
    rcases hscope with ⟨files, paths, hscope⟩
    rw [filterMap_snoc_none hmethod, ← h.methods, hscope]
  packages := hpackages
  files file := by
    rw [visible_snoc, hfiles, h.files]

theorem bindingOf_eq (h : Reflects answers items c) {path : String} :
    c.bindingOf answers path = Item.bindingFor answers path := by
  unfold bindingOf packageOf Item.bindingFor
  cases hknown : c.packages.get? path with
  | none => rfl
  | some known =>
      rcases h.packages path known hknown with ⟨package, hanswer, rfl⟩
      rw [hanswer]
      rfl

theorem learn (h : Reflects answers items c) {file path : String} {line : Nat}
    {package : Package} (hanswer : answers path = .ok package) :
    (c.learn answers file line path).errors = [] ∧
      forall q known, (c.learn answers file line path).packages.get? q = some known ->
        exists package, answers q = .ok package ∧ known = some package := by
  unfold Collection.learn
  split
  · exact ⟨h.clean, h.packages⟩
  · constructor
    · show c.errors ++ Collect.importFaults file line path (answers path) = []
      rw [hanswer, h.clean]
      rfl
    · refine Table.forall_get?_insert (P := fun q known =>
        exists package, answers q = .ok package ∧ known = some package) h.packages ?_
      rw [hanswer]
      exact ⟨package, rfl, rfl⟩

theorem bound (h : Reflects answers items c) {file path : String} {line : Nat}
    (hpath : path = "unsafe" ∨ exists package, answers path = .ok package) :
    (c.bound answers file line path).errors = [] ∧
      forall q known, (c.bound answers file line path).packages.get? q = some known ->
        exists package, answers q = .ok package ∧ known = some package := by
  unfold Collection.bound
  split
  · exact ⟨h.clean, h.packages⟩
  · next hsafe =>
      rcases hpath with hunsafe | ⟨package, hanswer⟩
      · exact absurd (beq_iff_eq.mpr hunsafe) hsafe
      · exact h.learn hanswer

theorem binding (h : Reflects answers items c) {file path : String} {line : Nat}
    {label : Option Source.ImportLabel}
    (hpath : path = "unsafe" ∨ exists package, answers path = .ok package) :
    Reflects answers (items ++ [.binding file line label path])
      ((Item.binding file line label path).apply answers c) := by
  rcases h.bound hpath with ⟨hclean, hpackages⟩
  rcases (c.bound answers file line path).addBinding_spec file line label
    (c.bindingOf answers path) with ⟨hledger, files, hscope⟩
  rw [scope_bound] at hscope
  refine h.snoc ?_ ⟨files, _, hscope⟩ rfl rfl rfl rfl rfl ?_ ?_
  · exact (congrArg Ledger.errors hledger).trans hclean
  · intro q known hknown
    exact hpackages q known ((congrArg (fun l => l.packages.get? q) hledger).symm.trans hknown)
  · intro other
    have hfile : forall name, (c.bound answers file line path).scope.fileScope name =
        c.scope.fileScope name := by
      rw [scope_bound]
      exact fun _ => rfl
    show ((c.bound answers file line path).addBinding file label (c.bindingOf answers path)
      line).scope.fileScope other = _
    rw [fileScope_addBinding, h.bindingOf_eq, hfile, hfile]
    simp only [Item.shows]
    by_cases hsame : other = file
    · rw [if_pos hsame, if_pos hsame.symm, hsame]
    · rw [if_neg hsame, if_neg (Ne.symm hsame)]

theorem opening (h : Reflects answers items c) (file : String) (qualifiers : List String) :
    Reflects answers (items ++ [.opening file qualifiers])
      ((Item.opening file qualifiers).apply answers c) := by
  refine h.snoc h.clean ⟨_, _, rfl⟩ rfl rfl rfl rfl rfl h.packages ?_
  intro other
  show (c.scope.updateFile file fun _ => FileScope.ofQualifiers qualifiers).fileScope other = _
  rw [Scope.fileScope_updateFile]
  simp only [Item.shows]
  by_cases hsame : other = file
  · rw [if_pos hsame, if_pos hsame.symm]
  · rw [if_neg hsame, if_neg (Ne.symm hsame)]

theorem method (h : Reflects answers items c) (m : MethodSource) :
    Reflects answers (items ++ [.method m]) ((Item.method m).apply answers c) where
  clean := h.clean
  claims name := by
    rw [filterMap_snoc_none rfl]
    exact h.claims name
  types name t := by
    rw [filterMap_snoc_none rfl]
    exact h.types name t
  consts := by
    rw [filterMap_snoc_none rfl]
    exact h.consts
  others := by
    rw [filterMap_snoc_none rfl]
    exact h.others
  methods := by
    rw [filterMap_snoc_some (g := Item.method?) rfl, ← h.methods]
    rfl
  packages := h.packages
  files file := by
    rw [visible_snoc]
    exact h.files file

theorem blank (h : Reflects answers items c) {file : String} {x : Source.Extent} {what : Claim}
    (hblank : x.text = "_") : Reflects answers (items ++ [.claim file x what]) c := by
  have hsame : (x.text == "_") = true := beq_iff_eq.mpr hblank
  refine h.snoc h.clean ⟨_, _, rfl⟩ ?_ ?_ ?_ ?_ rfl h.packages fun _ => rfl
  · rw [Item.name?_claim, if_pos hblank]
  · cases what <;> simp [Item.type?, hsame]
  · cases what <;> simp [Item.const?, hsame]
  · cases what <;> simp [Item.other?, hsame]

theorem claim (h : Reflects answers items c) {file : String} {x : Source.Extent} {what : Claim}
    (hname : x.text ≠ "_") (hnew : x.text ∉ items.filterMap Item.name?) :
    Reflects answers (items ++ [.claim file x what])
      (c.updateScope (addClaim file x.text what)) where
  clean := h.clean
  claims name := by
    have hclaim : (Item.claim file x what).name? = some x.text := by
      rw [Item.name?_claim, if_neg hname]
    rw [filterMap_snoc_some hclaim, scope_updateScope, claims_addClaim, List.mem_append,
      ← h.claims name, List.mem_singleton]
  types name t := by
    cases what with
    | type spec =>
        have htype : (Item.claim file x (.type spec)).type? = some (x.text, ⟨file, spec⟩) := by
          simp [Item.type?, hname]
        have hold : c.scope.types.get? x.text = none := by
          have hfree := mt (h.claims x.text).mp hnew
          rw [claims_iff, not_or, not_exists] at hfree
          exact Option.eq_none_iff_forall_ne_some.mpr hfree.1
        rw [filterMap_snoc_some htype, List.mem_append, ← h.types name t, List.mem_singleton]
        exact Table.get?_insert_eq_some_iff hold
    | const spec type expr iota =>
        rw [filterMap_snoc_none rfl]
        exact h.types name t
    | other =>
        rw [filterMap_snoc_none rfl]
        exact h.types name t
  consts := by
    cases what with
    | type spec =>
        rw [filterMap_snoc_none rfl]
        exact h.consts
    | const spec type expr iota =>
        have hconst : (Item.claim file x (.const spec type expr iota)).const? =
            some ⟨x.text, file, spec, type, expr, iota⟩ := by
          simp [Item.const?, hname]
        rw [filterMap_snoc_some hconst, ← h.consts]
        rfl
    | other =>
        rw [filterMap_snoc_none rfl]
        exact h.consts
  others := by
    cases what with
    | type spec =>
        rw [filterMap_snoc_none rfl]
        exact h.others
    | const spec type expr iota =>
        rw [filterMap_snoc_none rfl]
        exact h.others
    | other =>
        have hother : (Item.claim file x .other).other? = some x.text := by
          simp [Item.other?, hname]
        rw [filterMap_snoc_some hother, ← h.others]
        rfl
  methods := by
    rw [filterMap_snoc_none rfl, ← h.methods]
    cases what <;> rfl
  packages := h.packages
  files other := by
    rw [visible_snoc, scope_updateScope]
    have hfile : (addClaim file x.text what c.scope).fileScope other = c.scope.fileScope other := by
      cases what <;> rfl
    exact hfile.trans (h.files other)

theorem apply (h : Reflects answers items c) {i : Item} (hfits : i.Fits answers items) :
    Reflects answers (items ++ [i]) (i.apply answers c) := by
  cases i with
  | opening file qualifiers => exact h.opening file qualifiers
  | binding file line label path => exact h.binding hfits
  | fault file line complaint => exact hfits.elim
  | claim file x what =>
      unfold Item.apply
      by_cases hblank : x.text = "_"
      · simp only [beq_iff_eq.mpr hblank, if_true]
        exact h.blank hblank
      · have hnew := hfits.resolve_left hblank
        have hfree : c.scope.claims x.text = false :=
          eq_false_of_ne_true fun hclaims => hnew ((h.claims x.text).mp hclaims)
        simp only [beq_eq_false_iff_ne.mpr hblank, hfree, Bool.false_eq_true, if_false]
        exact h.claim hblank hnew
  | method m => exact h.method m

theorem complained (h : Reflects answers items c) {i : Item} (hnot : ¬ i.Fits answers items) :
    Complained (i.apply answers c).errors := by
  cases i with
  | opening file qualifiers => exact absurd trivial hnot
  | binding file line label path =>
      unfold Item.Fits at hnot
      rw [not_or, not_exists] at hnot
      rw [errors_binding]
      cases hanswer : answers path with
      | ok package => exact absurd hanswer (hnot.2 package)
      | error cause =>
          have hunknown : c.packages.get? path = none := by
            cases hknown : c.packages.get? path with
            | none => rfl
            | some known =>
                rcases h.packages path known hknown with ⟨package, hok, _⟩
                cases hok.symm.trans hanswer
          unfold Collection.bound Collection.learn
          rw [if_neg fun hsame => hnot.1 (beq_iff_eq.mp hsame), hunknown, hanswer]
          exact ⟨_, List.mem_append_right _ List.mem_cons_self, rfl⟩
  | fault file line complaint =>
      exact ⟨_, List.mem_append_right _ List.mem_cons_self, rfl⟩
  | claim file x what =>
      unfold Item.Fits at hnot
      rw [not_or, not_not, ← h.claims] at hnot
      simp only [Item.apply, beq_eq_false_iff_ne.mpr hnot.1, hnot.2, Bool.false_eq_true, if_false,
        if_true]
      exact ⟨_, List.mem_append_right _ List.mem_cons_self, rfl⟩
  | method m => exact absurd trivial hnot

theorem start (p : LoadedPackage) : Reflects answers [] (Collection.start p) where
  clean := rfl
  claims name := by
    constructor
    · intro h
      cases h
    · intro h
      cases h
  types name t := by
    constructor
    · intro h
      cases h
    · intro h
      cases h
  consts := rfl
  others := rfl
  methods := rfl
  packages q known h := by cases h
  files file := rfl

end Reflects

theorem complained_apply {i : Item} (h : Complained c.errors) :
    Complained (i.apply answers c).errors := by
  cases i with
  | opening file qualifiers => exact h
  | binding file line label path =>
      rw [errors_binding]
      unfold bound learn
      split
      · exact h
      · split
        · exact h
        · exact h.append _
  | fault file line complaint => exact h.append _
  | claim file x what =>
      unfold Item.apply
      dsimp only
      split
      · exact h
      · split
        · exact h.append _
        · exact h
  | method m => exact h

/-- A first pass without complaints is one over faultless items, and collects what they say. -/
theorem reflects_or_complained (p : LoadedPackage) (answers : Answers) (items : List Item) :
    (Item.Faultless answers items ∧
        Reflects answers items (Item.applyAll answers items (Collection.start p))) ∨
      (¬ Item.Faultless answers items ∧
        Complained (Item.applyAll answers items (Collection.start p)).errors) := by
  induction items using List.reverseRecOn with
  | nil => exact Or.inl ⟨Item.faultless_nil, Reflects.start p⟩
  | append_singleton items i ih =>
      rw [Item.applyAll_append, Item.faultless_snoc_iff]
      rcases ih with ⟨hfaultless, hreflects⟩ | ⟨hnot, hcomplained⟩
      · by_cases hfits : i.Fits answers items
        · exact Or.inl ⟨⟨hfaultless, hfits⟩, hreflects.apply hfits⟩
        · exact Or.inr ⟨fun h => hfits h.2, hreflects.complained hfits⟩
      · exact Or.inr ⟨fun h => hnot h.1, complained_apply hcomplained⟩

end Reflecting

end Collection

end GoAtlas
