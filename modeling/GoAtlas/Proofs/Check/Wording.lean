import GoAtlas.Proofs.Check.Items
import GoAtlas.Proofs.Check.Lossless

/-!
# Answers that differ in wording

A check looks at the packages it is told about and never at the reasons why there is none.  Under
answers that give the same packages it goes the same way: the package it finds is the same, and
the complaints are equally many and equally hard.
-/

namespace GoAtlas

def Answers.SamePackages (left right : Answers) : Prop :=
  forall q, (left q).toOption = (right q).toOption

def softness (errors : List TypeError) : List Bool :=
  errors.map fun e => e.isSoft

theorem softness_append (errors more : List TypeError) :
    softness (errors ++ more) = softness errors ++ softness more :=
  List.map_append

/-!
# The first pass
-/

namespace Collection

structure Matches (c d : Collection) : Prop where
  scope : c.scope = d.scope
  packages : c.packages = d.packages
  errors : softness c.errors = softness d.errors

namespace Matches

variable {left right : Answers} {c d : Collection}

theorem updateScope (h : Matches c d) (f : Scope -> Scope) :
    Matches (c.updateScope f) (d.updateScope f) :=
  ⟨congrArg f h.scope, h.packages, h.errors⟩

theorem complain (h : Matches c d) (file : String) (line : Nat) (complaint : Complaint) :
    Matches (c.complain file line complaint) (d.complain file line complaint) where
  scope := h.scope
  packages := h.packages
  errors := by
    unfold Collection.complain
    rw [softness_append, softness_append, h.errors]

theorem softness_importFaults (hsame : left.SamePackages right) (file : String) (line : Nat)
    (path : String) :
    softness (Collect.importFaults file line path (left path)) =
      softness (Collect.importFaults file line path (right path)) := by
  have hpath := hsame path
  cases hleft : left path with
  | ok p =>
      cases hright : right path with
      | ok p' => rfl
      | error e =>
          rw [hleft, hright] at hpath
          cases hpath
  | error e =>
      cases hright : right path with
      | ok p' =>
          rw [hleft, hright] at hpath
          cases hpath
      | error e' => rfl

theorem learn (h : Matches c d) (hsame : left.SamePackages right) (file : String) (line : Nat)
    (path : String) :
    Matches (c.learn left file line path) (d.learn right file line path) := by
  unfold Collection.learn
  rw [← h.packages]
  split
  · exact h
  · refine ⟨h.scope, ?_, ?_⟩
    · dsimp only
      rw [hsame path, h.packages]
    · dsimp only
      rw [softness_append, softness_append, h.errors, softness_importFaults hsame]

theorem bindingOf (h : Matches c d) (hsame : left.SamePackages right) (path : String) :
    c.bindingOf left path = d.bindingOf right path := by
  unfold Collection.bindingOf Collection.packageOf
  rw [h.packages, hsame path]

theorem bound (h : Matches c d) (hsame : left.SamePackages right) (file : String) (line : Nat)
    (path : String) :
    Matches (c.bound left file line path) (d.bound right file line path) := by
  unfold Collection.bound
  split
  · exact h.updateScope _
  · exact (h.learn hsame file line path).updateScope _

theorem addBinding (h : Matches c d) (file : String) (label : Option Source.ImportLabel)
    (b : Binding) (line : Nat) :
    Matches (c.addBinding file label b line) (d.addBinding file label b line) := by
  unfold Collection.addBinding
  split
  · exact h.updateScope _
  · exact h
  · exact h.updateScope _
  · exact h.updateScope _

theorem apply (h : Matches c d) (hsame : left.SamePackages right) (i : Item) :
    Matches (i.apply left c) (i.apply right d) := by
  cases i with
  | opening file qualifiers =>
      exact h.updateScope fun s => s.updateFile file fun _ => FileScope.ofQualifiers qualifiers
  | binding file line label path =>
      simp only [Item.apply]
      rw [h.bindingOf hsame]
      exact (h.bound hsame file line path).addBinding file label _ line
  | fault file line complaint => exact h.complain file line complaint
  | claim file x what =>
      simp only [Item.apply]
      rw [← h.scope]
      split
      · exact h
      · split
        · exact h.complain _ _ _
        · exact h.updateScope _
  | method m => exact h.updateScope fun s => { s with methods := s.methods ++ [m] }

theorem applyAll (h : Matches c d) (hsame : left.SamePackages right) (items : List Item) :
    Matches (Item.applyAll left items c) (Item.applyAll right items d) := by
  induction items generalizing c d with
  | nil => exact h
  | cons i rest ih => exact ih (h.apply hsame i)

end Matches

theorem matches_collect {left right : Answers} (hsame : left.SamePackages right)
    (p : LoadedPackage) : Matches ((collect p).under left) ((collect p).under right) := by
  rw [under_collect_eq, under_collect_eq]
  exact Matches.applyAll ⟨rfl, rfl, rfl⟩ hsame p.items

end Collection

/-!
# The second pass
-/

/-- States of the second pass that differ in the wording of complaints only. -/
structure Progress.Matches (p q : Progress) : Prop where
  packages : p.packages = q.packages
  underlying : p.underlying = q.underlying
  aliases : p.aliases = q.aliases
  values : p.values = q.values
  errors : softness p.errors = softness q.errors

def Tracking.worded (left right : Answers) : Tracking :=
  ⟨left, right, Progress.Matches, fun _ => False, fun _ => False⟩

section Second

variable {left right : Answers}

theorem Tracking.lossless_worded : (Tracking.worded left right).Lossless :=
  ⟨fun _ h => h, fun _ h => h⟩

theorem Tracking.remembers_worded : (Tracking.worded left right).Remembers where
  aliases _ _ h := h.aliases
  underlying _ _ h := h.underlying
  values _ _ h := h.values
  recordAlias name type _ _ h :=
    ⟨h.packages, h.underlying, congrArg (fun t => t.insert name type) h.aliases, h.values, h.errors⟩
  recordUnderlying name type _ _ h :=
    ⟨h.packages, congrArg (fun t => t.insert name type) h.underlying, h.aliases, h.values, h.errors⟩
  recordValue i value _ _ h :=
    ⟨h.packages, h.underlying, h.aliases, congrArg (fun vs => vs ++ [(i, value)]) h.values,
      h.errors⟩

theorem Tracks.of_matches {α : Type} {m n : Resolve α}
    (h : forall p q, Progress.Matches p q ->
      (m.outcome left p).1 = (n.outcome right q).1 ∧
        Progress.Matches (m.outcome left p).2 (n.outcome right q).2) :
    Tracks (.worded left right) m n :=
  Tracks.of_related Tracking.lossless_worded h

theorem Tracks.matches {α : Type} {m n : Resolve α} (h : Tracks (.worded left right) m n)
    {p q : Progress} (hpq : Progress.Matches p q) :
    (m.outcome left p).1 = (n.outcome right q).1 ∧
      Progress.Matches (m.outcome left p).2 (n.outcome right q).2 :=
  h.related Tracking.lossless_worded hpq

theorem tracks_report (file : String) (line line' : Nat) (isSoft : Bool)
    (complaint : Complaint) :
    Tracks (.worded left right) (Resolve.report file line isSoft complaint)
      (Resolve.report file line' isSoft complaint) := by
  apply Tracks.of_matches
  intro p q h
  refine ⟨rfl, h.packages, h.underlying, h.aliases, h.values, ?_⟩
  show softness (p.errors ++ _) = softness (q.errors ++ _)
  rw [softness_append, softness_append, h.errors]
  rfl

theorem tracks_packageAt (hsame : left.SamePackages right) (path : String) :
    Tracks (.worded left right) (Resolve.packageAt path) (Resolve.packageAt path) := by
  apply Tracks.of_matches
  intro p q h
  unfold Resolve.outcome
  cases hknown : p.packages.get? path with
  | some known =>
      rw [Resolve.run_packageAt_known hknown, Resolve.run_packageAt_known (h.packages ▸ hknown)]
      exact ⟨rfl, h⟩
  | none =>
      rw [Resolve.run_packageAt_new hknown, Resolve.run_packageAt_new (h.packages ▸ hknown)]
      have hinsert : p.packages.insert path (left path).toOption =
          q.packages.insert path (right path).toOption := by
        rw [h.packages, hsame path]
      exact ⟨hsame path, hinsert, h.underlying, h.aliases, h.values, h.errors⟩

theorem Tracking.lawful_worded (hsame : left.SamePackages right) :
    (Tracking.worded left right).Lawful where
  left_mono _ _ _ hlost := hlost
  right_mono _ _ _ hlost := hlost
  report file line line' isSoft complaint := tracks_report file line line' isSoft complaint
  packageAt := tracks_packageAt hsame

namespace Scope

theorem steps_worded (hsame : left.SamePackages right) (sc : Scope) (fuel : Nat)
    (pending : List Pending) :
    StepLinks (.worded left right) sc (sc.linksWithin fuel pending)
      (sc.linksWithin fuel pending) :=
  steps_linksWithin (Tracking.lawful_worded hsame) Tracking.lossless_worded
    Tracking.remembers_worded (.refl sc) fuel pending

theorem tracks_definitions (hsame : left.SamePackages right) (sc : Scope) (name : String) :
    Tracks (.worded left right) (sc.definitions name) (sc.definitions name) :=
  tracks_definitionsWith (Tracking.lawful_worded hsame)
    (steps_worded hsame sc sc.linkDepth []) name

end Scope
end Second

/-!
# The whole check
-/

/-- Answers that give the same packages lead to the same package, and to complaints that are
equally hard. -/
theorem checkGo_of_samePackages {left right : Answers} (hsame : left.SamePackages right)
    (p : LoadedPackage) :
    ((checkGo p).under left).package = ((checkGo p).under right).package ∧
      softness ((checkGo p).under left).errors = softness ((checkGo p).under right).errors := by
  have hfirst := Collection.matches_collect hsame p
  have hstart : Progress.Matches ((collect p).under left).progress
      ((collect p).under right).progress :=
    ⟨hfirst.packages, rfl, rfl, rfl, hfirst.errors⟩
  have hsecond := (Scope.tracks_definitions hsame ((collect p).under left).scope p.name).matches
    hstart
  rw [under_checkGo, under_checkGo]
  unfold definedUnder
  rw [← hfirst.scope]
  exact ⟨hsecond.1, hsecond.2.errors⟩

theorem checkGo_of_asked (left right : Answers) (p : LoadedPackage)
    (hsame : forall q, q ∈ (checkGo p).asked left -> q ∈ (checkGo p).asked right ->
      (left q).toOption = (right q).toOption) :
    ((checkGo p).under left).package = ((checkGo p).under right).package ∧
      softness ((checkGo p).under left).errors = softness ((checkGo p).under right).errors := by
  classical
  -- What a check does not ask for can be answered as in the other one.
  let other : Answers := fun q => if q ∈ (checkGo p).asked left then left q else right q
  let other' : Answers := fun q => if q ∈ (checkGo p).asked right then right q else other q
  have hleft := Inquiry.under_congr left other (checkGo p) fun q hq => if_pos hq
  have hright := Inquiry.under_congr right other' (checkGo p) fun q hq => if_pos hq
  have hboth : Answers.SamePackages other other' := by
    intro q
    by_cases hr : q ∈ (checkGo p).asked right
    · rw [show other' q = right q from if_pos hr]
      by_cases hl : q ∈ (checkGo p).asked left
      · rw [show other q = left q from if_pos hl]
        exact hsame q hl hr
      · rw [show other q = right q from if_neg hl]
    · rw [show other' q = other q from if_neg hr]
  rw [← hleft.1, ← hright.1]
  exact checkGo_of_samePackages hboth p

end GoAtlas
