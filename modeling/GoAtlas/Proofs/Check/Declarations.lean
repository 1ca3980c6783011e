import GoAtlas.Proofs.Check.Faultless

/-!
# Who claims a name

Among the declarations of a name the first one claims it and every other one is complained about,
once.  The first pass keeps the books on this: its tables hold the first declarations, and its
complaints of this kind are the others, in order.
-/

namespace GoAtlas

/-!
# Firsts and repeats
-/

section Repeats

variable {α κ : Type} [DecidableEq κ]

def firstsAfter (key : α -> κ) : List κ -> List α -> List α
  | _, [] => []
  | seen, a :: rest =>
      if key a ∈ seen then firstsAfter key seen rest
      else a :: firstsAfter key (key a :: seen) rest

def repeatsAfter (key : α -> κ) : List κ -> List α -> List α
  | _, [] => []
  | seen, a :: rest =>
      if key a ∈ seen then a :: repeatsAfter key seen rest
      else repeatsAfter key (key a :: seen) rest

variable {key : α -> κ} {seen : List κ} {xs : List α}

theorem mem_keys_firstsAfter {k : κ} :
    k ∈ (firstsAfter key seen xs).map key ↔ k ∈ xs.map key ∧ k ∉ seen := by
  induction xs generalizing seen with
  | nil => simp [firstsAfter]
  | cons a rest ih =>
      unfold firstsAfter
      split
      · next hseen =>
          rw [ih, List.map_cons, List.mem_cons]
          constructor
          · exact fun h => ⟨Or.inr h.1, h.2⟩
          · rintro ⟨rfl | hrest, hnew⟩
            · exact absurd hseen hnew
            · exact ⟨hrest, hnew⟩
      · next hnew =>
          rw [List.map_cons, List.mem_cons, ih, List.map_cons, List.mem_cons, List.mem_cons, not_or]
          by_cases heq : k = key a
          · simp [heq, hnew]
          · simp [heq]

theorem mem_of_mem_firstsAfter {a : α} (h : a ∈ firstsAfter key seen xs) : a ∈ xs := by
  induction xs generalizing seen with
  | nil => cases h
  | cons b rest ih =>
      unfold firstsAfter at h
      split at h
      · exact List.mem_cons_of_mem _ (ih h)
      · rcases List.mem_cons.mp h with rfl | hrest
        · exact List.mem_cons_self
        · exact List.mem_cons_of_mem _ (ih hrest)

theorem nodup_keys_firstsAfter : ((firstsAfter key seen xs).map key).Nodup := by
  induction xs generalizing seen with
  | nil => exact List.nodup_nil
  | cons a rest ih =>
      unfold firstsAfter
      split
      · exact ih
      · rw [List.map_cons, List.nodup_cons, mem_keys_firstsAfter]
        exact ⟨fun h => h.2 List.mem_cons_self, ih⟩

end Repeats

/-!
# Declarations
-/

/-- A declaration of a name for the whole package. -/
structure TopDeclaration where
  file : String
  name : Source.Extent
  what : Claim

namespace TopDeclaration

def key (d : TopDeclaration) : String := d.name.text

def type? (d : TopDeclaration) : Option TypeDecl :=
  match d.what with
  | .type spec => some ⟨d.file, spec⟩
  | _ => none

def const? (d : TopDeclaration) : Option ConstDecl :=
  match d.what with
  | .const spec type expr iota => some ⟨d.key, d.file, spec, type, expr, iota⟩
  | _ => none

def redeclaration (d : TopDeclaration) : TypeError :=
  ⟨.redeclared d.key, false, some d.file, some d.name.line⟩

end TopDeclaration

def Item.declaration? : Item -> Option TopDeclaration
  | claim file x what => if x.text == "_" then none else some ⟨file, x, what⟩
  | _ => none

namespace LoadedPackage

/-- Types, constants, variables and functions of a package, but for blank names and `init`
functions, in the order of files and sources. -/
def declarations (p : LoadedPackage) : List TopDeclaration :=
  p.items.filterMap Item.declaration?

def claimed (p : LoadedPackage) : List TopDeclaration :=
  firstsAfter TopDeclaration.key [] p.declarations

def repeated (p : LoadedPackage) : List TopDeclaration :=
  repeatsAfter TopDeclaration.key [] p.declarations

theorem mem_items_of_claimed {p : LoadedPackage} {d : TopDeclaration} (h : d ∈ p.claimed) :
    Item.claim d.file d.name d.what ∈ p.items := by
  obtain ⟨i, hi, hdecl⟩ := List.mem_filterMap.mp (mem_of_mem_firstsAfter h)
  unfold Item.declaration? at hdecl
  split at hdecl
  · split at hdecl
    · cases hdecl
    · cases hdecl
      exact hi
  · cases hdecl

end LoadedPackage

/-- Complaints about which the books are kept: that a name is taken, or that a method has no
place. -/
def Complaint.isBooked : Complaint -> Bool
  | redeclared _ | noReceiver | foreignReceiver _ | methodRedeclared _ _ => true
  | _ => false

def TypeError.isBooked (e : TypeError) : Bool := e.complaint.isBooked

def Unbooked (errors more : List TypeError) : Prop :=
  exists rest, more = errors ++ rest ∧ forall e, e ∈ rest -> e.isBooked = false

namespace Unbooked

variable {errors more other : List TypeError}

theorem refl (errors : List TypeError) : Unbooked errors errors :=
  ⟨[], (List.append_nil _).symm, List.forall_mem_nil _⟩

theorem trans (h : Unbooked errors more) (h' : Unbooked more other) : Unbooked errors other := by
  obtain ⟨rest, rfl, hrest⟩ := h
  obtain ⟨rest', rfl, hrest'⟩ := h'
  exact ⟨rest ++ rest', List.append_assoc _ _ _, List.forall_mem_append.mpr ⟨hrest, hrest'⟩⟩

theorem single {e : TypeError} (h : e.isBooked = false) : Unbooked errors (errors ++ [e]) :=
  ⟨[e], rfl, List.forall_mem_singleton.mpr h⟩

theorem filter_eq (h : Unbooked errors more) :
    more.filter TypeError.isBooked = errors.filter TypeError.isBooked := by
  obtain ⟨rest, rfl, hrest⟩ := h
  have hnone : rest.filter TypeError.isBooked = [] :=
    List.filter_eq_nil_iff.mpr fun e he => Bool.eq_false_iff.mp (hrest e he)
  rw [List.filter_append, hnone, List.append_nil]

theorem subset (h : Unbooked errors more) : errors ⊆ more := by
  obtain ⟨rest, rfl, _⟩ := h
  exact List.subset_append_left _ _

end Unbooked

/-!
# Items that declare nothing
-/

namespace Item

def Sound : Item -> Prop
  | fault _ _ complaint => complaint.isBooked = false
  | _ => True

theorem sound_ofConstNames {file : String} {spec : Source.Extent} {type : Option Source.TypeExpr}
    {iota : Nat} {names : List Source.Extent} {values : List Source.Expr} {i : Item}
    (h : i ∈ ofConstNames file spec type iota names values) : i.Sound := by
  induction names generalizing values with
  | nil => cases h
  | cons x names ih =>
      rcases List.mem_cons.mp h with rfl | hrest
      · trivial
      · exact ih hrest

theorem sound_ofConstSpecs {file : String}
    {last : Option (Option Source.TypeExpr × List Source.Expr)} {iota : Nat}
    {specs : List Source.ConstSpec} {i : Item} (h : i ∈ ofConstSpecs file last iota specs) :
    i.Sound := by
  induction specs generalizing last iota with
  | nil => cases h
  | cons spec rest ih =>
      unfold ofConstSpecs arityFaults at h
      dsimp only at h
      rcases List.mem_append.mp h with hspec | hrest
      · rcases List.mem_append.mp hspec with hfault | hnames
        · split at hfault
          · rw [List.mem_singleton.mp hfault]
            rfl
          · split at hfault
            · rw [List.mem_singleton.mp hfault]
              rfl
            · cases hfault
        · exact sound_ofConstNames hnames
      · exact ih hrest

theorem sound_ofDecl {file : String} {d : Source.Decl} {i : Item} (h : i ∈ ofDecl file d) :
    i.Sound := by
  cases ofDecl_of_mem h with
  | malformed line => rfl
  | const hi => exact sound_ofConstSpecs hi
  | binding | type | var | func | method => trivial

theorem sound_items {p : LoadedPackage} {i : Item} (h : i ∈ p.items) : i.Sound := by
  obtain ⟨f, _, hf⟩ := List.mem_flatMap.mp h
  rcases List.mem_cons.mp hf with rfl | hdecls
  · trivial
  · obtain ⟨d, _, hd⟩ := List.mem_flatMap.mp hdecls
    exact sound_ofDecl hd

end Item

/-!
# Constants without an expression
-/

namespace Item

section Missing

variable {file : String} {x : Source.Extent} {spec : Source.Extent} {type : Option Source.TypeExpr}
  {iota : Nat}

theorem lt_of_mem_ofConstNames {file' : String} {spec' : Source.Extent}
    {type' : Option Source.TypeExpr} {iota' : Nat} {names : List Source.Extent}
    {values : List Source.Expr}
    (h : claim file x (.const spec type none iota) ∈
      ofConstNames file' spec' type' iota' names values) :
    file = file' ∧ spec = spec' ∧ values.length < names.length := by
  induction names generalizing values with
  | nil => cases h
  | cons y names ih =>
      rcases List.mem_cons.mp h with heq | hrest
      · injection heq with hfile _ hwhat
        injection hwhat with hspec _ hhead _
        rw [List.head?_eq_none_iff.mp hhead.symm]
        exact ⟨hfile, hspec, Nat.succ_pos _⟩
      · obtain ⟨hfile, hspec, hless⟩ := ih hrest
        rw [List.length_tail] at hless
        rw [List.length_cons]
        exact ⟨hfile, hspec, by omega⟩

theorem fault_mem_ofConstSpecs {file' : String}
    {last : Option (Option Source.TypeExpr × List Source.Expr)} {n : Nat}
    {specs : List Source.ConstSpec}
    (h : claim file x (.const spec type none iota) ∈ ofConstSpecs file' last n specs) :
    fault file spec.line .missingValue ∈ ofConstSpecs file' last n specs := by
  induction specs generalizing last n with
  | nil => cases h
  | cons s rest ih =>
      unfold ofConstSpecs at h ⊢
      dsimp only at h ⊢
      rcases List.mem_append.mp h with hspec | hrest
      · refine List.mem_append_left _ (List.mem_append_left _ ?_)
        rcases List.mem_append.mp hspec with hfault | hnames
        · unfold arityFaults at hfault
          split at hfault
          · cases List.mem_singleton.mp hfault
          · split at hfault
            · cases List.mem_singleton.mp hfault
            · cases hfault
        · obtain ⟨rfl, rfl, hless⟩ := lt_of_mem_ofConstNames hnames
          unfold arityFaults
          rw [if_pos hless]
          exact List.mem_singleton_self _
      · exact List.mem_append_right _ (ih hrest)

theorem fault_mem_ofDecl {file' : String} {d : Source.Decl}
    (h : claim file x (.const spec type none iota) ∈ ofDecl file' d) :
    fault file spec.line .missingValue ∈ ofDecl file' d := by
  cases ofDecl_of_mem h with
  | const hi => exact fault_mem_ofConstSpecs hi

theorem fault_mem_items {p : LoadedPackage}
    (h : claim file x (.const spec type none iota) ∈ p.items) :
    fault file spec.line .missingValue ∈ p.items := by
  obtain ⟨f, hf, hitem⟩ := List.mem_flatMap.mp h
  refine List.mem_flatMap.mpr ⟨f, hf, ?_⟩
  rcases List.mem_cons.mp hitem with heq | hdecls
  · cases heq
  · obtain ⟨d, hd, hclaim⟩ := List.mem_flatMap.mp hdecls
    exact List.mem_cons_of_mem _ (List.mem_flatMap.mpr ⟨d, hd, fault_mem_ofDecl hclaim⟩)

end Missing

end Item

namespace Collection

structure KeepsNames (c d : Collection) : Prop where
  types : d.scope.types = c.scope.types
  consts : d.scope.consts = c.scope.consts
  others : d.scope.others = c.scope.others
  errors : Unbooked c.errors d.errors

theorem unbooked_learn (answers : Answers) (file : String) (line : Nat) (path : String)
    (c : Collection) : Unbooked c.errors (c.learn answers file line path).errors := by
  unfold learn
  split
  · exact Unbooked.refl _
  · refine ⟨_, rfl, ?_⟩
    unfold Collect.importFaults
    cases answers path with
    | ok package => exact List.forall_mem_nil _
    | error cause => exact List.forall_mem_singleton.mpr rfl

theorem keepsNames_apply {answers : Answers} {i : Item} {c : Collection} (hsound : i.Sound)
    (h : i.declaration? = none) : c.KeepsNames (i.apply answers c) := by
  cases i with
  | opening file qualifiers => exact ⟨rfl, rfl, rfl, Unbooked.refl _⟩
  | binding file line label path =>
      obtain ⟨_, files, hscope⟩ := (c.bound answers file line path).addBinding_spec file line label
        (c.bindingOf answers path)
      rw [scope_bound] at hscope
      have herrors : Unbooked c.errors (c.bound answers file line path).errors := by
        unfold bound
        split
        · exact Unbooked.refl _
        · exact unbooked_learn answers file line path c
      have hsame : (Item.apply answers (.binding file line label path) c).errors =
          (c.bound answers file line path).errors := errors_binding
      exact ⟨(congrArg Scope.types hscope :), (congrArg Scope.consts hscope :),
        (congrArg Scope.others hscope :), hsame ▸ herrors⟩
  | fault file line complaint => exact ⟨rfl, rfl, rfl, Unbooked.single hsound⟩
  | claim file x what =>
      simp only [Item.declaration?] at h
      split at h
      · next hblank =>
          simp only [Item.apply, hblank, if_true]
          exact ⟨rfl, rfl, rfl, Unbooked.refl _⟩
      · cases h
  | method m => exact ⟨rfl, rfl, rfl, Unbooked.refl _⟩

theorem methods_apply (answers : Answers) (i : Item) (c : Collection) :
    (i.apply answers c).scope.methods = c.scope.methods ++ i.method?.toList := by
  cases i with
  | opening file qualifiers => exact (List.append_nil _).symm
  | binding file line label path =>
      obtain ⟨_, files, hscope⟩ := (c.bound answers file line path).addBinding_spec file line label
        (c.bindingOf answers path)
      rw [scope_bound] at hscope
      exact (congrArg Scope.methods hscope :).trans (List.append_nil _).symm
  | fault file line complaint => exact (List.append_nil _).symm
  | claim file x what =>
      refine Eq.trans ?_ (List.append_nil _).symm
      simp only [Item.apply]
      split
      · rfl
      · split
        · rfl
        · cases what with
          | type spec => rfl
          | const spec type expr iota => rfl
          | other => rfl
  | method m => rfl

theorem errors_apply_subset (answers : Answers) (i : Item) (c : Collection) :
    c.errors ⊆ (i.apply answers c).errors := by
  cases i with
  | opening file qualifiers => exact List.Subset.refl _
  | binding file line label path =>
      exact (keepsNames_apply (i := .binding file line label path) trivial rfl).errors.subset
  | fault file line complaint => exact List.subset_append_left _ _
  | claim file x what =>
      simp only [Item.apply]
      split
      · exact List.Subset.refl _
      · split
        · exact List.subset_append_left _ _
        · exact List.Subset.refl _
  | method m => exact List.Subset.refl _

theorem error_of_fault {p : LoadedPackage} {file : String} {line : Nat} {complaint : Complaint}
    (answers : Answers) (h : Item.fault file line complaint ∈ p.items) :
    ⟨complaint, false, some file, some line⟩ ∈ ((collect p).under answers).errors := by
  obtain ⟨front, back, hsplit⟩ := List.append_of_mem h
  rw [under_collect_eq, hsplit, Item.applyAll_append]
  refine Item.applyAll_induction (P := fun c => _ ∈ c.errors) (c := Item.apply answers
    (.fault file line complaint) _) ?_ fun i c _ hmem => errors_apply_subset answers i c hmem
  exact List.mem_append_right _ (List.mem_singleton_self _)

/-!
# The books
-/

/-- What the first pass makes of declarations and methods, after some names were seen. -/
structure Booked (seen : List String) (decls : List TopDeclaration) (methods : List MethodSource)
    (c d : Collection) : Prop where
  redeclared : d.errors.filter TypeError.isBooked =
    c.errors.filter TypeError.isBooked ++
      (repeatsAfter TopDeclaration.key seen decls).map TopDeclaration.redeclaration
  types : forall name t, d.scope.types.get? name = some t ↔
    c.scope.types.get? name = some t ∨
      exists x, x ∈ firstsAfter TopDeclaration.key seen decls ∧ x.key = name ∧ x.type? = some t
  consts : d.scope.consts =
    c.scope.consts ++ (firstsAfter TopDeclaration.key seen decls).filterMap TopDeclaration.const?
  methods : d.scope.methods = c.scope.methods ++ methods

namespace Booked

variable {seen : List String} {decls : List TopDeclaration} {methods : List MethodSource}
  {c d : Collection}

theorem refl (seen : List String) (c : Collection) : Booked seen [] [] c c where
  redeclared := (List.append_nil _).symm
  types name t := by simp [firstsAfter]
  consts := (List.append_nil _).symm
  methods := (List.append_nil _).symm

theorem after {b : Collection} {more : List MethodSource} (h : Booked seen decls methods c d)
    (hkeeps : b.KeepsNames c) (hmore : c.scope.methods = b.scope.methods ++ more) :
    Booked seen decls (more ++ methods) b d where
  redeclared := by rw [h.redeclared, hkeeps.errors.filter_eq]
  types name t := by rw [h.types, hkeeps.types]
  consts := by rw [h.consts, hkeeps.consts]
  methods := by rw [h.methods, hmore, List.append_assoc]

variable {x : TopDeclaration}

theorem of_repeated (hkey : x.key ∈ seen)
    (h : Booked seen decls methods (c.complain x.file x.name.line (.redeclared x.key)) d) :
    Booked seen (x :: decls) methods c d where
  redeclared := by
    rw [h.redeclared, repeatsAfter, if_pos hkey, List.map_cons]
    exact List.append_cons _ _ _ ▸ congrArg (· ++ _) (List.filter_append _ _)
  types name t := by
    rw [h.types, firstsAfter, if_pos hkey]
    rfl
  consts := by
    rw [h.consts, firstsAfter, if_pos hkey]
    rfl
  methods := h.methods

theorem of_claimed (hkey : x.key ∉ seen) (hfree : c.scope.types.get? x.key = none)
    (h : Booked (x.key :: seen) decls methods (c.updateScope (addClaim x.file x.key x.what)) d) :
    Booked seen (x :: decls) methods c d where
  redeclared := by
    rw [h.redeclared, repeatsAfter, if_neg hkey]
    rfl
  types name t := by
    rw [h.types, firstsAfter, if_neg hkey]
    obtain ⟨file, extent, what⟩ := x
    cases what with
    | type spec =>
        simp only [List.mem_cons, exists_eq_or_imp, TopDeclaration.type?, Option.some.injEq]
        rw [← or_assoc]
        refine or_congr_left ((Table.get?_insert_eq_some_iff hfree).trans (or_congr_right ?_))
        rw [Prod.mk.injEq, eq_comm (a := name), eq_comm (a := t)]
    | const spec type expr iota =>
        simp [addClaim, TopDeclaration.type?]
    | other => simp [addClaim, TopDeclaration.type?]
  consts := by
    rw [h.consts, firstsAfter, if_neg hkey]
    obtain ⟨file, extent, what⟩ := x
    cases what with
    | type spec => rfl
    | const spec type expr iota => exact List.append_assoc _ _ _
    | other => rfl
  methods := by
    rw [h.methods]
    obtain ⟨file, extent, what⟩ := x
    cases what with
    | type spec => rfl
    | const spec type expr iota => rfl
    | other => rfl

end Booked

theorem claims_of_keepsNames {c d : Collection} (h : c.KeepsNames d) (name : String) :
    d.scope.claims name = c.scope.claims name := by
  unfold Scope.claims Scope.isConst
  rw [h.types, h.consts, h.others]

theorem booked_applyAll (answers : Answers) {items : List Item}
    (hsound : forall i, i ∈ items -> i.Sound) {seen : List String} {c : Collection}
    (hseen : forall name, c.scope.claims name = true ↔ name ∈ seen) :
    Booked seen (items.filterMap Item.declaration?) (items.filterMap Item.method?) c
      (Item.applyAll answers items c) := by
  induction items generalizing seen c with
  | nil => exact Booked.refl seen c
  | cons i rest ih =>
      have hrest : forall j, j ∈ rest -> j.Sound := fun j hj => hsound j (List.mem_cons_of_mem _ hj)
      show Booked seen _ _ c (Item.applyAll answers rest (i.apply answers c))
      cases hd : i.declaration? with
      | none =>
          have hkeeps : c.KeepsNames (i.apply answers c) :=
            keepsNames_apply (hsound i List.mem_cons_self) hd
          have hbooked := ih hrest fun name => by
            rw [claims_of_keepsNames hkeeps, hseen]
          have hboth := hbooked.after hkeeps (methods_apply answers i c)
          rw [List.filterMap_cons_none hd]
          cases hm : i.method? with
          | none =>
              rw [List.filterMap_cons_none hm]
              rw [hm] at hboth
              exact hboth
          | some m =>
              rw [List.filterMap_cons_some hm]
              rw [hm] at hboth
              exact hboth
      | some x =>
          rw [List.filterMap_cons_some hd]
          cases i with
          | claim file y what =>
              simp only [Item.declaration?] at hd
              split at hd
              · cases hd
              · next hblank =>
                  cases hd
                  simp only [Item.apply, hblank]
                  by_cases hkey : y.text ∈ seen
                  · rw [if_pos ((hseen _).mpr hkey)]
                    exact Booked.of_repeated hkey (ih hrest hseen)
                  · have hfree : ¬ c.scope.claims y.text = true := fun h => hkey ((hseen _).mp h)
                    rw [if_neg hfree]
                    refine Booked.of_claimed hkey ?_ (ih hrest fun name => ?_)
                    · cases htype : c.scope.types.get? y.text with
                      | none => exact htype
                      | some t => exact absurd (claims_iff.mpr (Or.inl ⟨t, htype⟩)) hfree
                    · rw [scope_updateScope, claims_addClaim, hseen, List.mem_cons, or_comm]
          | _ => cases hd

theorem booked_collect (p : LoadedPackage) (answers : Answers) :
    Booked [] p.declarations (p.items.filterMap Item.method?) (Collection.start p)
      ((collect p).under answers) := by
  rw [under_collect_eq]
  refine booked_applyAll answers (fun i hi => Item.sound_items hi) fun name => ?_
  exact ⟨fun h => (by cases h), fun h => absurd h List.not_mem_nil⟩

end Collection
end GoAtlas
