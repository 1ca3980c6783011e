import GoAtlas.Proofs.Check.PackageTrails
import GoAtlas.Proofs.Check.Values
import Mathlib.Data.Finset.Card
import Mathlib.Data.Fintype.Card
import Mathlib.Data.Set.Finite.List
import Mathlib.Logic.Relation

/-!
# Runs of passes

The second pass goes to and fro between declarations: expressions lead to names, names to
declarations, and declarations to further expressions.  Here it is told without any bound on how
far it goes.  Declarations are entered and left again, and one that is entered while it is pending
is found to need itself.  A pass ends because on its way down more and more declarations are
pending, of which there are finitely many, and because no alias of another package leads back to
itself.
-/

namespace GoAtlas

open Scope (Pending)

namespace Answers

/-!
# Aliases of other packages
-/

def aliasTarget? (answers : Answers) : GoType -> Option GoType
  | .named (.declared q name) =>
      (((answers q).toOption.bind fun package => package.type? name).filter TypeDef.isAlias).map
        TypeDef.underlying
  | _ => none

theorem aliasTarget?_of_found {answers : Answers} {q name : String} {d : TypeDef}
    (h : ((answers q).toOption.bind fun package => package.type? name) = some d)
    (hd : d.isAlias = true) :
    answers.aliasTarget? (.named (.declared q name)) = some d.underlying := by
  rw [aliasTarget?, h, Option.filter_some, if_pos hd]
  rfl

/-- No alias of an answered package is defined through itself, be it in a circle or without
end. -/
def Grounded (answers : Answers) : Prop :=
  WellFounded fun next type => answers.aliasTarget? type = some next

theorem exists_of_aliasTarget? {answers : Answers} {type next : GoType}
    (h : answers.aliasTarget? type = some next) :
    exists q package name d, type = .named (.declared q name) ∧ answers q = .ok package ∧
      package.type? name = some d ∧ d.isAlias = true ∧ next = d.underlying := by
  unfold aliasTarget? at h
  split at h
  · next q name =>
      obtain ⟨d, hd, rfl⟩ := Option.map_eq_some_iff.mp h
      obtain ⟨hfound, halias⟩ := Option.filter_eq_some_iff.mp hd
      obtain ⟨package, hanswer, hname⟩ := Option.bind_eq_some_iff.mp hfound
      exact ⟨q, package, name, d, rfl, ok_of_toOption hanswer, hname, halias, rfl⟩
  · cases h

/-- Finitely many packages have finitely many aliases, so that none is defined without end unless
one is defined in a circle. -/
theorem grounded_of_finite {answers : Answers} (paths : List String)
    (hpaths : forall q package, answers q = .ok package -> q ∈ paths)
    (hacyclic : forall type, ¬ Relation.TransGen
      (fun type next => answers.aliasTarget? type = some next) type type) :
    answers.Grounded := by
  let step := fun type next => answers.aliasTarget? type = some next
  let aliases := { type : GoType | exists next, step type next }
  have hfinite : aliases.Finite := by
    let declared := paths.flatMap fun q => (answers q).toOption.toList.flatMap fun package =>
      package.types.keys.map fun name => GoType.named (.declared q name)
    refine (List.finite_toSet declared).subset ?_
    rintro type ⟨next, hnext⟩
    obtain ⟨q, package, name, d, rfl, hanswer, hname, _, _⟩ := exists_of_aliasTarget? hnext
    refine List.mem_flatMap.mpr ⟨q, hpaths q package hanswer, ?_⟩
    rw [hanswer]
    refine List.mem_flatMap.mpr ⟨package, List.mem_singleton_self _, ?_⟩
    exact List.mem_map_of_mem (Table.mem_keys_iff.mpr ⟨d, hname⟩)
  have : Finite aliases := hfinite
  have hwf : WellFounded fun next type : aliases => Relation.TransGen step type.1 next.1 := by
    have : IsTrans aliases fun next type => Relation.TransGen step type.1 next.1 :=
      ⟨fun _ _ _ hab hbc => hbc.trans hab⟩
    have : Std.Irrefl fun next type : aliases => Relation.TransGen step type.1 next.1 :=
      ⟨fun type => hacyclic type.1⟩
    exact Finite.wellFounded_of_trans_of_irrefl _
  have hacc : forall type : aliases, Acc (fun next type => step type next) type.1 := by
    intro type
    induction type using hwf.induction with
    | _ type ih =>
        constructor
        intro next hnext
        by_cases halias : next ∈ aliases
        · exact ih ⟨next, halias⟩ (Relation.TransGen.single hnext)
        · exact ⟨_, fun further hfurther => absurd ⟨further, hfurther⟩ halias⟩
  refine ⟨fun type => ?_⟩
  by_cases halias : type ∈ aliases
  · exact hacc ⟨type, halias⟩
  · exact ⟨_, fun next hnext => absurd ⟨next, hnext⟩ halias⟩

def EndsWithin (answers : Answers) : Nat -> GoType -> Prop
  | 0, type => answers.aliasTarget? type = none
  | n + 1, type => forall next, answers.aliasTarget? type = some next -> answers.EndsWithin n next

def Short (answers : Answers) : Prop :=
  forall type, exists n, n < chainLimit ∧ answers.EndsWithin n type

end Answers

/-!
# Work
-/

/-- A pass at some point: what was found, the stack of types and aliases that are being resolved,
and the numbers of the constants that are being evaluated. -/
structure Work where
  progress : Progress
  resolving : List Pending
  evaluating : Finset Nat

namespace Work

def IsPending (w : Work) : Pending -> Prop
  | .alias name => .alias name ∈ w.resolving
  | .type name => .type name ∈ w.resolving
  | .const i => i ∈ w.evaluating

instance (w : Work) (k : Pending) : Decidable (w.IsPending k) :=
  match k with
  | .alias name => inferInstanceAs (Decidable (.alias name ∈ w.resolving))
  | .type name => inferInstanceAs (Decidable (.type name ∈ w.resolving))
  | .const i => inferInstanceAs (Decidable (i ∈ w.evaluating))

def enter (w : Work) : Pending -> Work
  | .alias name => { w with resolving := .alias name :: w.resolving }
  | .type name => { w with resolving := .type name :: w.resolving }
  | .const i => { w with evaluating := insert i w.evaluating }

def leave (w : Work) : Pending -> Work
  | .alias _ => { w with resolving := w.resolving.tail }
  | .type _ => { w with resolving := w.resolving.tail }
  | .const i => { w with evaluating := w.evaluating.erase i }

def ask (w : Work) (answers : Answers) (q : String) : Option Package × Work :=
  let r := (Resolve.packageAt q).outcome answers w.progress
  (r.1, { w with progress := r.2 })

/-- What was pending before is pending after, in the same order. -/
structure Restores (w v : Work) : Prop where
  resolving : v.resolving = w.resolving
  evaluating : v.evaluating = w.evaluating

theorem Restores.refl (w : Work) : Restores w w := ⟨rfl, rfl⟩

theorem Restores.trans {w v u : Work} (hwv : Restores w v) (hvu : Restores v u) : Restores w u :=
  ⟨hvu.resolving.trans hwv.resolving, hvu.evaluating.trans hwv.evaluating⟩

theorem Restores.isPending {w v : Work} (h : Restores w v) (k : Pending) :
    v.IsPending k ↔ w.IsPending k := by
  match k with
  | .alias _ | .type _ =>
      unfold IsPending
      rw [h.resolving]
  | .const _ =>
      unfold IsPending
      rw [h.evaluating]

theorem progress_enter (w : Work) (k : Pending) : (w.enter k).progress = w.progress := by
  match k with
  | .alias _ | .type _ | .const _ => rfl

theorem isPending_enter (w : Work) (k other : Pending) :
    (w.enter k).IsPending other ↔ other = k ∨ w.IsPending other := by
  match k, other with
  | .alias _, .alias _ | .alias _, .type _ | .type _, .alias _ | .type _, .type _ =>
      exact List.mem_cons
  | .alias _, .const _ | .type _, .const _ | .const _, .alias _ | .const _, .type _
  | .const _, .const _ => simp [IsPending, enter]

theorem restores_leave {w v : Work} {k : Pending} (h : Restores (w.enter k) v)
    (hk : ¬ w.IsPending k) (p : Progress) : Restores w { v.leave k with progress := p } := by
  match k with
  | .alias _ | .type _ => exact ⟨congrArg List.tail h.resolving, h.evaluating⟩
  | .const i =>
      refine ⟨h.resolving, ?_⟩
      refine (congrArg (fun s => s.erase i) h.evaluating).trans ?_
      exact Finset.erase_insert hk

theorem told_ask {w : Work} {answers : Answers} (h : w.progress.Told answers) (q : String) :
    (w.ask answers q).1 = (answers q).toOption ∧ (w.ask answers q).2.progress.Told answers := by
  rcases Resolve.outcome_packageAt h q with ⟨packages, heq, htold⟩
  unfold ask
  dsimp only
  rw [heq]
  exact ⟨rfl, htold⟩

end Work

/-!
# Runs
-/

def GoType.shape? : GoType -> Option GoType
  | .named (.declared _ _) => none
  | .named (.builtin name) => some (if name == "error" then .errorInterface else .interface [] [])
  | type => some type

theorem GoType.shape?_or_declared (type : GoType) :
    (exists shape, type.shape? = some shape) ∨ exists q name, type = .named (.declared q name) := by
  unfold shape?
  split
  · exact Or.inr ⟨_, _, rfl⟩
  · exact Or.inl ⟨_, rfl⟩
  · exact Or.inl ⟨_, rfl⟩

/-- The pass leads from the first state to the result and the last state. -/
inductive Runs (sc : Scope) (answers : Answers) :
    {α : Type} -> (Links -> Resolve α) -> Work -> α -> Work -> Prop where
  | pure {α : Type} (a : α) (w : Work) : Runs sc answers (fun _ => Pure.pure a) w a w
  | bind {α β : Type} {F : Links -> Resolve α} {G : α -> Links -> Resolve β} {w v u : Work} {a : α}
      {b : β} (hF : Runs sc answers F w a v) (hG : Runs sc answers (G a) v b u) :
      Runs sc answers (fun links => F links >>= fun a => G a links) w b u
  | report (file : String) (line : Nat) (isSoft : Bool) (complaint : Complaint) (w : Work) :
      Runs sc answers (fun _ => Resolve.report file line isSoft complaint) w ()
        { w with progress := w.progress.complained file line isSoft complaint }
  /-- It was worked out before. -/
  | known {k : Pending} {a : k.Result} {w : Work} (h : w.progress.recalled k = some a) :
      Runs sc answers (fun links => links.follow k) w a w
  /-- There is no such declaration. -/
  | missing {k : Pending} {w : Work} (hhas : sc.Has k) (h : w.progress.recalled k = none)
      (hd : sc.saying? k = none) : Runs sc answers (fun links => links.follow k) w k.nothing w
  /-- It is being worked out. -/
  | circular {k : Pending} {d : Saying k.Result} {w : Work} (h : w.progress.recalled k = none)
      (hd : sc.saying? k = some d) (hk : w.IsPending k) :
      Runs sc answers (fun links => links.follow k) w k.nothing
        { w with progress := w.progress.complained d.file d.line false d.circular }
  /-- It is worked out now. -/
  | enter {k : Pending} {d : Saying k.Result} {w v : Work} {a : k.Result}
      (h : w.progress.recalled k = none) (hd : sc.saying? k = some d) (hk : ¬ w.IsPending k)
      (hbody : Runs sc answers d.body (w.enter k) a v) :
      Runs sc answers (fun links => links.follow k) w a
        { v.leave k with progress := v.progress.record k a }
  /-- The structure is the type itself. -/
  | here {type shape : GoType} {w : Work} (h : type.shape? = some shape) :
      Runs sc answers (fun links => sc.underlying links type) w shape w
  /-- The type is one of the package itself. -/
  | own {name : String} {type : GoType} {w v : Work}
      (h : Runs sc answers (fun links => links.underlying name) w type v) :
      Runs sc answers (fun links => sc.underlying links (.named (.declared sc.path name))) w type v
  /-- Another package does not have it. -/
  | absent {q name : String} {w : Work} (hq : q ≠ sc.path)
      (h : ((w.ask answers q).1.bind fun package => package.type? name) = none) :
      Runs sc answers (fun links => sc.underlying links (.named (.declared q name))) w .invalid
        (w.ask answers q).2
  /-- Another package declares it. -/
  | direct {q name : String} {d : TypeDef} {w : Work} (hq : q ≠ sc.path)
      (h : ((w.ask answers q).1.bind fun package => package.type? name) = some d)
      (hd : d.isAlias = false) :
      Runs sc answers (fun links => sc.underlying links (.named (.declared q name))) w d.underlying
        (w.ask answers q).2
  /-- It is an alias of another package. -/
  | through {q name : String} {d : TypeDef} {type : GoType} {w v : Work} (hq : q ≠ sc.path)
      (h : ((w.ask answers q).1.bind fun package => package.type? name) = some d)
      (hd : d.isAlias = true)
      (hnext : Runs sc answers (fun links => sc.underlying links d.underlying)
        (w.ask answers q).2 type v) :
      Runs sc answers (fun links => sc.underlying links (.named (.declared q name))) w type v

namespace Runs

variable {sc : Scope} {answers : Answers} {α : Type} {F : Links -> Resolve α} {w v : Work} {a : α}

theorem restores (h : Runs sc answers F w a v) : w.Restores v := by
  induction h with
  | pure a w => exact Work.Restores.refl w
  | bind hF hG ihF ihG => exact ihF.trans ihG
  | report file line isSoft complaint w => exact ⟨rfl, rfl⟩
  | known h => exact Work.Restores.refl _
  | missing hhas h hd => exact Work.Restores.refl _
  | circular h hd hk => exact ⟨rfl, rfl⟩
  | enter h hd hk hbody ih => exact Work.restores_leave ih hk _
  | here h => exact Work.Restores.refl _
  | own h ih => exact ih
  | absent hq h => exact ⟨rfl, rfl⟩
  | direct hq h hd => exact ⟨rfl, rfl⟩
  | through hq h hd hnext ih => exact ⟨ih.resolving, ih.evaluating⟩

theorem told (h : Runs sc answers F w a v) (hw : w.progress.Told answers) :
    v.progress.Told answers := by
  induction h with
  | pure a w => exact hw
  | bind hF hG ihF ihG => exact ihG (ihF hw)
  | report file line isSoft complaint w => exact hw
  | known h => exact hw
  | missing hhas h hd => exact hw
  | circular h hd hk => exact hw
  | @enter k d w v a h hd hk hbody ih =>
      have hv := ih (by rw [Work.progress_enter]; exact hw)
      unfold Progress.Told at hv ⊢
      rw [Progress.packages_record]
      exact hv
  | here h => exact hw
  | own h ih => exact ih hw
  | absent hq h => exact (Work.told_ask hw _).2
  | direct hq h hd => exact (Work.told_ask hw _).2
  | through hq h hd hnext ih => exact ih (Work.told_ask hw _).2

end Runs

/-!
# Runs exist

The more declarations are pending, the fewer are left; between two of them only expressions and
the aliases of other packages are followed.
-/

namespace Scope

def room (sc : Scope) (w : Work) : Nat :=
  (sc.allPending.toFinset.filter fun k => ¬ w.IsPending k).card

theorem room_restores (sc : Scope) {w v : Work} (h : w.Restores v) : sc.room v = sc.room w := by
  unfold room
  simp only [h.isPending]

theorem room_enter {sc : Scope} {w : Work} {k : Pending} (hmem : k ∈ sc.allPending)
    (hk : ¬ w.IsPending k) : sc.room (w.enter k) < sc.room w := by
  apply Finset.card_lt_card
  rw [Finset.ssubset_iff_of_subset]
  · refine ⟨k, Finset.mem_filter.mpr ⟨List.mem_toFinset.mpr hmem, hk⟩, ?_⟩
    rw [Finset.mem_filter, not_and, not_not]
    exact fun _ => (w.isPending_enter k k).mpr (Or.inl rfl)
  · intro other hother
    rw [Finset.mem_filter, w.isPending_enter, not_or] at hother
    exact Finset.mem_filter.mpr ⟨hother.1, hother.2.2⟩

section Totality

variable {sc : Scope} {answers : Answers}

/-- The pass has a run from every state with so much room, whatever is pending. -/
def Returns (sc : Scope) (answers : Answers) {α : Type} (room : Nat) (F : Links -> Resolve α)
    (Q : α -> Prop) : Prop :=
  forall w : Work, w.progress.Told answers -> sc.room w = room ->
    exists a v, Runs sc answers F w a v ∧ Q a

theorem returns_follow {room : Nat}
    (hbodies : forall k d less, sc.saying? k = some d -> less < room ->
      sc.Returns answers less d.body (k.Knows fun _ _ => True)) {k : Pending} (hk : sc.Has k) :
    sc.Returns answers room (fun links => links.follow k) (k.Knows fun _ _ => True) := by
  intro w htold hroom
  cases hknown : w.progress.recalled k with
  | some a => exact ⟨a, w, .known hknown, k.knows_all a⟩
  | none =>
      cases hd : sc.saying? k with
      | none => exact ⟨k.nothing, w, .missing hk hknown hd, k.knows_nothing _⟩
      | some d =>
          by_cases hpending : w.IsPending k
          · exact ⟨k.nothing, _, .circular hknown hd hpending, k.knows_nothing _⟩
          · have hless := room_enter (mem_allPending_of_saying hd) hpending
            rw [hroom] at hless
            have htold' : (w.enter k).progress.Told answers := by
              rw [Work.progress_enter]
              exact htold
            obtain ⟨a, v, hrun, ha⟩ := hbodies k d _ hd hless (w.enter k) htold' rfl
            exact ⟨a, _, .enter hknown hd hpending hrun, ha⟩

theorem returns_underlying (hground : answers.Grounded) {room : Nat}
    (hown : forall name, sc.Returns answers room (fun links => links.underlying name)
      fun type => type.Within True fun _ _ => True) (type : GoType) :
    sc.Returns answers room (fun links => sc.underlying links type)
      fun type => type.Within True fun _ _ => True := by
  induction type using hground.induction with
  | _ type ih =>
      intro w htold hroom
      rcases type.shape?_or_declared with ⟨shape, hshape⟩ | ⟨q, name, rfl⟩
      · exact ⟨shape, w, .here hshape, shape.within_all⟩
      · by_cases hq : q = sc.path
        · subst hq
          obtain ⟨shape, v, hrun, hshape⟩ := hown name w htold hroom
          exact ⟨shape, v, .own hrun, hshape⟩
        · obtain ⟨hanswer, htold'⟩ := Work.told_ask htold q
          cases hfound : (w.ask answers q).1.bind fun package => package.type? name with
          | none => exact ⟨_, _, .absent hq hfound, GoType.within_all _⟩
          | some d =>
              cases halias : d.isAlias with
              | false => exact ⟨_, _, .direct hq hfound halias, GoType.within_all _⟩
              | true =>
                  have hnext := Answers.aliasTarget?_of_found (hanswer ▸ hfound) halias
                  have hroom' : sc.room (w.ask answers q).2 = room :=
                    (sc.room_restores ⟨rfl, rfl⟩).trans hroom
                  obtain ⟨shape, v, hrun, hshape⟩ := ih _ hnext _ htold' hroom'
                  exact ⟨shape, v, .through hq hfound halias hrun, hshape⟩

theorem returns_of_trail {α : Type} {Fault : Complaint -> Prop} {F F' : Links -> Resolve α}
    {Q : α -> Prop} (h : Trail sc sc (fun _ _ => True) Fault F F' Q) {room : Nat}
    (hfollow : forall k, sc.Has k ->
      sc.Returns answers room (fun links => links.follow k) (k.Knows fun _ _ => True))
    (hbehind : forall type, sc.Returns answers room (fun links => sc.underlying links type)
      fun type => type.Within True fun _ _ => True) : sc.Returns answers room F Q := by
  induction h with
  | pure a ha => exact fun w _ _ => ⟨a, w, .pure a w, ha⟩
  | bind hF hG ihF ihG =>
      intro w htold hroom
      obtain ⟨a, v, hrun, ha⟩ := ihF w htold hroom
      have hroom' := (sc.room_restores hrun.restores).trans hroom
      obtain ⟨b, u, hrun', hb⟩ := ihG a ha v (hrun.told htold) hroom'
      exact ⟨b, u, .bind hrun hrun', hb⟩
  | report file line isSoft hfault =>
      exact fun w _ _ => ⟨(), _, .report file line isSoft _ w, trivial⟩
  | follow hk => exact hfollow _ hk
  | behind htype => exact hbehind _

/-- Links, structures and with them all passes have runs, however much room there is. -/
theorem returns_all (sc : Scope) (hground : answers.Grounded) (room : Nat) :
    (forall k, sc.Has k ->
      sc.Returns answers room (fun links => links.follow k) (k.Knows fun _ _ => True)) ∧
    forall type, sc.Returns answers room (fun links => sc.underlying links type)
      fun type => type.Within True fun _ _ => True := by
  induction room using Nat.strong_induction_on with
  | _ room ih =>
      have hbodies : forall k d less, sc.saying? k = some d -> less < room ->
          sc.Returns answers less d.body (k.Knows fun _ _ => True) := by
        intro k d less hd hless
        obtain ⟨_, _, _, _, _, htrail⟩ := trail_saying (sc.setting_self (fun _ _ => trivial)) hd
        exact returns_of_trail htrail (ih less hless).1 (ih less hless).2
      have hfollow := fun k hk => returns_follow hbodies (k := k) hk
      exact ⟨hfollow, returns_underlying hground fun name => hfollow (.type name) trivial⟩

theorem exists_run (hground : answers.Grounded) {α : Type} {F F' : Links -> Resolve α}
    {Q : α -> Prop} (h : Trail sc sc (fun _ _ => True) (fun _ => True) F F' Q) (w : Work)
    (hw : w.progress.Told answers) : exists a v, Runs sc answers F w a v := by
  obtain ⟨hfollow, hbehind⟩ := sc.returns_all hground (sc.room w)
  obtain ⟨a, v, hrun, _⟩ := returns_of_trail h hfollow hbehind w hw rfl
  exact ⟨a, v, hrun⟩

end Totality
end Scope

end GoAtlas
