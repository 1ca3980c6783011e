import GoAtlas.Proofs.Check.Faultless
import GoAtlas.Proofs.Table

/-!
# Twin scopes

Two importers answer alike if their packages differ only in what is not shown.  The first pass
looks at the names of packages and at failures, so under answers that are alike it finds the same
faults, and two scopes that are alike but for the packages that their imports are bound to.
-/

namespace GoAtlas

/-!
# Answers that are alike
-/

/-- Two packages that look alike where they are shown. -/
structure Package.Like (shown : String -> Prop) (p p' : Package) : Prop where
  path : p'.path = p.path
  name : p'.name = p.name
  isOpaque : p'.isOpaque = p.isOpaque
  type? : forall name, shown name -> p'.type? name = p.type? name
  constant? : forall name, shown name -> p'.constant? name = p.constant? name

/-- The importers answer every path with packages that look alike, or with the same failure. -/
def Answers.Like (shown : String -> String -> Prop) (answers answers' : Answers) : Prop :=
  forall q,
    (exists p p', answers q = .ok p ∧ answers' q = .ok p' ∧ p.Like (shown q) p') ∨
    exists cause, answers q = .error cause ∧ answers' q = .error cause

theorem Answers.like_refl (shown : String -> String -> Prop) (answers : Answers) :
    answers.Like shown answers := by
  intro q
  cases hq : answers q with
  | ok package =>
      exact Or.inl ⟨package, package, rfl, rfl, rfl, rfl, rfl, fun _ _ => rfl, fun _ _ => rfl⟩
  | error cause => exact Or.inr ⟨cause, rfl, rfl⟩

/-!
# Tables with the same keys
-/

namespace Table

variable {α β : Type} {R : α -> β -> Prop}

def Alike (R : α -> β -> Prop) (t : Table α) (u : Table β) : Prop :=
  List.Forall₂ (fun e e' => e'.1 = e.1 ∧ R e.2 e'.2) t.entries u.entries

theorem forall₂_put {key : String} {a : α} {b : β} (hab : R a b) {xs : List (String × α)}
    {ys : List (String × β)} (h : List.Forall₂ (fun e e' => e'.1 = e.1 ∧ R e.2 e'.2) xs ys) :
    List.Forall₂ (fun e e' => e'.1 = e.1 ∧ R e.2 e'.2) (put key a xs) (put key b ys) := by
  induction h with
  | nil => exact .cons ⟨rfl, hab⟩ .nil
  | @cons e e' xs ys he hrest ih =>
      obtain ⟨k, v⟩ := e
      obtain ⟨k', v'⟩ := e'
      obtain ⟨rfl, hv⟩ := he
      simp only [put]
      split
      · exact .cons ⟨rfl, hab⟩ (.cons ⟨rfl, hv⟩ hrest)
      · split
        · exact .cons ⟨rfl, hab⟩ hrest
        · exact .cons ⟨rfl, hv⟩ ih

theorem Alike.insert {t : Table α} {u : Table β} (h : Alike R t u) (key : String) {a : α} {b : β}
    (hab : R a b) : Alike R (t.insert key a) (u.insert key b) :=
  forall₂_put hab h

theorem rel_lookup (key : String) {xs : List (String × α)} {ys : List (String × β)}
    (h : List.Forall₂ (fun e e' => e'.1 = e.1 ∧ R e.2 e'.2) xs ys) :
    Option.Rel R (xs.lookup key) (ys.lookup key) := by
  induction h with
  | nil => exact .none
  | @cons e e' xs ys he hrest ih =>
      obtain ⟨k, v⟩ := e
      obtain ⟨k', v'⟩ := e'
      dsimp only at he
      obtain ⟨rfl, hv⟩ := he
      rw [List.lookup_cons, List.lookup_cons]
      cases key == k' with
      | true => exact .some hv
      | false => exact ih

theorem Alike.get? {t : Table α} {u : Table β} (h : Alike R t u) (key : String) :
    Option.Rel R (t.get? key) (u.get? key) :=
  rel_lookup key h

end Table

/-!
# Scopes of files
-/

section Twins

variable (answers answers' : Answers)

def TwinBindings (b b' : Binding) : Prop :=
  exists path, b = Item.bindingFor answers path ∧ b' = Item.bindingFor answers' path

structure FileScope.Twins (f f' : FileScope) : Prop where
  imports : f.imports.Alike (TwinBindings answers answers') f'.imports
  dots : List.Forall₂ (TwinBindings answers answers') f.dots f'.dots
  named : f'.named = f.named
  qualifiers : f'.qualifiers = f.qualifiers

structure Scope.Twins (sc sc' : Scope) : Prop where
  same : sc' = { sc with files := sc'.files }
  files : sc.files.Alike (FileScope.Twins answers answers') sc'.files

structure Collection.Twins (c c' : Collection) : Prop where
  scope : c.scope.Twins answers answers' c'.scope
  errors : c'.errors = c.errors
  asked : forall q, c'.packages.get? q = none ↔ c.packages.get? q = none
  told : forall q known, c.packages.get? q = some known -> known = (answers q).toOption
  told' : forall q known, c'.packages.get? q = some known -> known = (answers' q).toOption

end Twins

section Scopes

variable {answers answers' : Answers}

theorem FileScope.twins_ofQualifiers (qualifiers : List String) :
    (FileScope.ofQualifiers qualifiers).Twins answers answers' (.ofQualifiers qualifiers) :=
  ⟨.nil, .nil, rfl, rfl⟩

namespace Scope.Twins

variable {sc sc' : Scope}

theorem fileScope (h : sc.Twins answers answers' sc') (file : String) :
    (sc.fileScope file).Twins answers answers' (sc'.fileScope file) := by
  unfold Scope.fileScope
  have hfile := h.files.get? file
  revert hfile
  generalize sc.files.get? file = f
  generalize sc'.files.get? file = f'
  intro hfile
  cases hfile with
  | none => exact FileScope.twins_ofQualifiers []
  | some hf => exact hf

theorem updateFile (h : sc.Twins answers answers' sc') (file : String)
    {f f' : FileScope -> FileScope}
    (hf : forall g g', FileScope.Twins answers answers' g g' ->
      (f g).Twins answers answers' (f' g')) :
    (sc.updateFile file f).Twins answers answers' (sc'.updateFile file f') where
  same := congrArg (fun s => { s with files := (sc'.updateFile file f').files }) h.same
  files := h.files.insert file (hf _ _ (h.fileScope file))

theorem claims (h : sc.Twins answers answers' sc') (name : String) :
    sc'.claims name = sc.claims name := by
  rw [h.same]
  rfl

end Scope.Twins

namespace Collection

variable {c c' : Collection}

theorem bindingOf_of_told
    (h : forall q known, c.packages.get? q = some known -> known = (answers q).toOption)
    (path : String) : c.bindingOf answers path = Item.bindingFor answers path := by
  unfold bindingOf packageOf Item.bindingFor
  cases hknown : c.packages.get? path with
  | none => rfl
  | some known =>
      rw [h path known hknown]
      rfl

namespace Twins

theorem updateScope (h : c.Twins answers answers' c') {f f' : Scope -> Scope}
    (hf : forall sc sc', Scope.Twins answers answers' sc sc' ->
      (f sc).Twins answers answers' (f' sc')) :
    (c.updateScope f).Twins answers answers' (c'.updateScope f') :=
  ⟨hf _ _ h.scope, h.errors, h.asked, h.told, h.told'⟩

theorem complain (h : c.Twins answers answers' c') (file : String) (line : Nat)
    (complaint : Complaint) :
    (c.complain file line complaint).Twins answers answers' (c'.complain file line complaint) :=
  ⟨h.scope, congrArg (· ++ _) h.errors, h.asked, h.told, h.told'⟩

variable {shown : String -> String -> Prop}

theorem learn (h : c.Twins answers answers' c') (hlike : answers.Like shown answers')
    (file : String) (line : Nat) (path : String) :
    (c.learn answers file line path).Twins answers answers'
      (c'.learn answers' file line path) := by
  have hsame := h.asked path
  unfold Collection.learn
  cases hknown : c.packages.get? path with
  | some known =>
      cases hknown' : c'.packages.get? path with
      | some known' => exact h
      | none => cases hknown.symm.trans (hsame.mp hknown')
  | none =>
      rw [hsame.mpr hknown]
      have hfaults : Collect.importFaults file line path (answers' path) =
          Collect.importFaults file line path (answers path) := by
        rcases hlike path with ⟨p, p', hp, hp', _⟩ | ⟨cause, hcause, hcause'⟩
        · rw [hp, hp']
          rfl
        · rw [hcause, hcause']
      refine ⟨h.scope, congrArg₂ _ h.errors hfaults, fun q => ?_, ?_, ?_⟩
      · dsimp only
        rw [Table.get?_insert, Table.get?_insert]
        split
        · exact Iff.rfl.trans (by simp)
        · exact h.asked q
      · exact Table.forall_get?_insert h.told rfl
      · exact Table.forall_get?_insert h.told' rfl

theorem bound (h : c.Twins answers answers' c') (hlike : answers.Like shown answers')
    (file : String) (line : Nat) (path : String) :
    (c.bound answers file line path).Twins answers answers'
      (c'.bound answers' file line path) := by
  unfold Collection.bound
  have hlearned : (if path == "unsafe" then c else c.learn answers file line path).Twins
      answers answers' (if path == "unsafe" then c' else c'.learn answers' file line path) := by
    split
    · exact h
    · exact h.learn hlike file line path
  refine hlearned.updateScope fun sc sc' hscope => ⟨?_, hscope.files⟩
  rw [hscope.same]

theorem addNamed (h : c.Twins answers answers' c') (file label : String) {b b' : Binding}
    (hb : TwinBindings answers answers' b b') (line : Nat) :
    (c.addNamed file label b line).Twins answers answers' (c'.addNamed file label b' line) := by
  refine h.updateScope fun _ _ hscope => hscope.updateFile file fun f f' hf => ?_
  have hpath : b'.path = b.path := by
    obtain ⟨path, rfl, rfl⟩ := hb
    rfl
  refine ⟨hf.imports.insert label hb, hf.dots, ?_, hf.qualifiers⟩
  rw [hf.named, hpath]

theorem addBinding (h : c.Twins answers answers' c') (hlike : answers.Like shown answers')
    (file : String) (label : Option Source.ImportLabel) (path : String) (line : Nat) :
    (c.addBinding file label (Item.bindingFor answers path) line).Twins answers answers'
      (c'.addBinding file label (Item.bindingFor answers' path) line) := by
  have hb : TwinBindings answers answers' (Item.bindingFor answers path)
      (Item.bindingFor answers' path) := ⟨path, rfl, rfl⟩
  unfold Collection.addBinding
  split
  · refine h.updateScope fun _ _ hscope => hscope.updateFile file fun f f' hf => ?_
    exact ⟨hf.imports, List.rel_append hf.dots (.cons hb .nil), hf.named, hf.qualifiers⟩
  · exact h
  · exact h.addNamed file _ hb line
  · have hlabel : Collect.defaultLabel (Item.bindingFor answers' path) =
        Collect.defaultLabel (Item.bindingFor answers path) := by
      unfold Collect.defaultLabel Item.bindingFor
      rcases hlike path with ⟨p, p', hp, hp', hboth⟩ | ⟨cause, hcause, hcause'⟩
      · rw [hp, hp']
        cases path == "unsafe" with
        | true => rfl
        | false =>
            show (if p'.name == "" then _ else p'.name) = if p.name == "" then _ else p.name
            rw [hboth.name]
      · rw [hcause, hcause']
    rw [hlabel]
    exact h.addNamed file _ hb line

theorem apply (h : c.Twins answers answers' c') (hlike : answers.Like shown answers') (i : Item) :
    (i.apply answers c).Twins answers answers' (i.apply answers' c') := by
  cases i with
  | opening file qualifiers =>
      exact h.updateScope fun _ _ hscope => hscope.updateFile file fun _ _ _ =>
        FileScope.twins_ofQualifiers qualifiers
  | binding file line label path =>
      simp only [Item.apply]
      rw [bindingOf_of_told h.told, bindingOf_of_told h.told']
      exact (h.bound hlike file line path).addBinding hlike file label path line
  | fault file line complaint => exact h.complain file line complaint
  | claim file x what =>
      simp only [Item.apply, h.scope.claims]
      split
      · exact h
      · split
        · exact h.complain file x.line _
        · refine h.updateScope fun sc sc' hscope => ?_
          rw [hscope.same]
          cases what with
          | type spec => exact ⟨rfl, hscope.files⟩
          | const spec type expr iota => exact ⟨rfl, hscope.files⟩
          | other => exact ⟨rfl, hscope.files⟩
  | method m =>
      have hadd : forall sc sc', Scope.Twins answers answers' sc sc' ->
          Scope.Twins answers answers' { sc with methods := sc.methods ++ [m] }
            { sc' with methods := sc'.methods ++ [m] } := by
        intro sc sc' hscope
        rw [hscope.same]
        exact ⟨rfl, hscope.files⟩
      exact h.updateScope hadd

end Twins

theorem twins_collect {shown : String -> String -> Prop} (p : LoadedPackage)
    (hlike : answers.Like shown answers') :
    ((collect p).under answers).Twins answers answers' ((collect p).under answers') := by
  rw [under_collect_eq, under_collect_eq]
  have hall : forall (items : List Item) (c c' : Collection), c.Twins answers answers' c' ->
      (Item.applyAll answers items c).Twins answers answers' (Item.applyAll answers' items c') := by
    intro items
    induction items with
    | nil => exact fun _ _ h => h
    | cons i rest ih => exact fun c c' h => ih _ _ (h.apply hlike i)
  refine hall p.items _ _ ⟨⟨rfl, .nil⟩, rfl, fun _ => Iff.rfl, ?_, ?_⟩
  · intro q known h
    cases h
  · intro q known h
    cases h

end Collection
end Scopes
end GoAtlas
