import GoAtlas.Proofs.Check.Runs

/-!
# Every check ends

Runs come to an end, and whatever was pending before is pending afterwards.  The bounded pass gets
where they get if its bounds cover all declarations and all chains of aliases, so that a check has
one result, whatever it is told.
-/

namespace GoAtlas

open Scope (Pending)

/-!
# The bounded pass finds the same
-/

namespace Scope

section Bounds

variable {sc : Scope} {answers : Answers}

theorem outcome_underlyingWithin_succ (links : Links) (fuel : Nat) {q : String} (name : String)
    (hq : q ≠ sc.path) (w : Work) :
    (sc.underlyingWithin links (fuel + 1) (.named (.declared q name))).outcome answers w.progress =
      match (w.ask answers q).1.bind fun package => package.type? name with
      | none => (.invalid, (w.ask answers q).2.progress)
      | some d =>
          if d.isAlias then
            (sc.underlyingWithin links fuel d.underlying).outcome answers
              (w.ask answers q).2.progress
          else (d.underlying, (w.ask answers q).2.progress) := by
  rw [underlyingWithin, if_neg fun heq => hq (beq_iff_eq.mp heq), Resolve.outcome_bind]
  unfold Work.ask
  dsimp only
  cases ((Resolve.packageAt q).outcome answers w.progress).1 with
  | none => rfl
  | some package =>
      dsimp only [Option.bind_some]
      cases package.type? name with
      | none => rfl
      | some d =>
          dsimp only
          split
          · rfl
          · rfl

theorem underlyingWithin_here {type shape : GoType} (h : type.shape? = some shape) (links : Links)
    (fuel : Nat) : sc.underlyingWithin links (fuel + 1) type = Pure.pure shape := by
  cases type with
  | named n =>
      cases n with
      | declared q name => cases h
      | builtin name =>
          cases h
          rw [underlyingWithin]
          split
          · rfl
          · rfl
  | _ =>
      cases h
      rfl

theorem underlyingWithin_own (links : Links) (fuel : Nat) (name : String) :
    sc.underlyingWithin links (fuel + 1) (.named (.declared sc.path name)) =
      links.underlying name := by
  rw [underlyingWithin, if_pos (beq_iff_eq.mpr rfl)]

/-- Where a chain of aliases ends within both bounds, the bounds do not matter. -/
theorem outcome_underlyingWithin_eq (sc : Scope) (links : Links) {n fuel fuel' : Nat}
    {type : GoType} (hends : answers.EndsWithin n type) (hfuel : n < fuel) (hfuel' : n < fuel')
    {w : Work} (htold : w.progress.Told answers) :
    (sc.underlyingWithin links fuel type).outcome answers w.progress =
      (sc.underlyingWithin links fuel' type).outcome answers w.progress := by
  induction fuel generalizing n fuel' type w with
  | zero => exact absurd hfuel (Nat.not_lt_zero n)
  | succ fuel ih =>
      obtain ⟨fuel', rfl⟩ := Nat.exists_eq_add_one_of_ne_zero (Nat.ne_zero_of_lt hfuel')
      rcases type.shape?_or_declared with ⟨shape, hshape⟩ | ⟨q, name, rfl⟩
      · rw [underlyingWithin_here hshape, underlyingWithin_here hshape]
      · by_cases hq : q = sc.path
        · subst hq
          rw [underlyingWithin_own, underlyingWithin_own]
        · rw [outcome_underlyingWithin_succ links fuel name hq,
            outcome_underlyingWithin_succ links fuel' name hq]
          obtain ⟨hanswer, htold'⟩ := Work.told_ask htold q
          cases hfound : (w.ask answers q).1.bind fun package => package.type? name with
          | none => rfl
          | some d =>
              dsimp only
              split
              · next halias =>
                  have hnext := Answers.aliasTarget?_of_found (hanswer ▸ hfound) halias
                  cases n with
                  | zero => cases hnext.symm.trans hends
                  | succ n =>
                      exact ih (hends _ hnext) (Nat.lt_of_succ_lt_succ hfuel)
                        (Nat.lt_of_succ_lt_succ hfuel') htold'
              · rfl

theorem underlying_eq (links : Links) (type : GoType) :
    sc.underlying links type = sc.underlyingWithin links (chainLimit - 1 + 1) type := rfl

structure Covers (sc : Scope) (fuel : Nat) (pending : List Pending) (w : Work) : Prop where
  same : forall k, w.IsPending k ↔ k ∈ pending
  nodup : pending.Nodup
  mem : forall k, k ∈ pending -> k ∈ sc.allPending
  enough : sc.allPending.length < fuel + pending.length

namespace Covers

variable {fuel : Nat} {pending : List Pending} {w v : Work}

theorem exists_succ (h : sc.Covers fuel pending w) : exists less, fuel = less + 1 := by
  have hle := h.nodup.length_le_of_subset h.mem
  have henough := h.enough
  exact Nat.exists_eq_add_one_of_ne_zero (by omega)

theorem restores (h : sc.Covers fuel pending w) (hwv : w.Restores v) : sc.Covers fuel pending v :=
  ⟨fun k => (hwv.isPending k).trans (h.same k), h.nodup, h.mem, h.enough⟩

theorem enter (h : sc.Covers (fuel + 1) pending w) {k : Pending} (hmem : k ∈ sc.allPending)
    (hk : ¬ w.IsPending k) : sc.Covers fuel (k :: pending) (w.enter k) where
  same other := by rw [w.isPending_enter, List.mem_cons, h.same]
  nodup := List.nodup_cons.mpr ⟨fun hin => hk ((h.same k).mpr hin), h.nodup⟩
  mem := List.forall_mem_cons.mpr ⟨hmem, h.mem⟩
  enough := by
    have henough := h.enough
    rw [List.length_cons]
    omega

end Covers
end Bounds
end Scope

/-- The bounded pass gets where the run gets. -/
theorem Runs.outcome_eq {sc : Scope} {answers : Answers} (hshort : answers.Short) {α : Type}
    {F : Links -> Resolve α} {w v : Work} {a : α} (h : Runs sc answers F w a v) {fuel : Nat}
    {pending : List Pending} (hcovers : sc.Covers fuel pending w)
    (htold : w.progress.Told answers) :
    (F (sc.linksWithin fuel pending)).outcome answers w.progress = (a, v.progress) := by
  induction h generalizing fuel pending with
  | pure a w => rfl
  | bind hF hG ihF ihG =>
      rw [Resolve.outcome_bind, ihF hcovers htold]
      exact ihG (hcovers.restores hF.restores) (hF.told htold)
  | report file line isSoft complaint w => rfl
  | known h =>
      obtain ⟨fuel, rfl⟩ := hcovers.exists_succ
      exact Scope.outcome_follow_known h
  | missing hhas h hd =>
      obtain ⟨fuel, rfl⟩ := hcovers.exists_succ
      exact Scope.outcome_follow_missing h hd
  | circular h hd hk =>
      obtain ⟨fuel, rfl⟩ := hcovers.exists_succ
      exact Scope.outcome_follow_circular h hd ((hcovers.same _).mp hk)
  | @enter k d w v a h hd hk hbody ih =>
      obtain ⟨fuel, rfl⟩ := hcovers.exists_succ
      have hbody := ih (hcovers.enter (Scope.mem_allPending_of_saying hd) hk)
        (by rw [Work.progress_enter]; exact htold)
      rw [Work.progress_enter] at hbody
      rw [Scope.outcome_follow_new h hd fun hin => hk ((hcovers.same k).mpr hin), hbody]
  | here h =>
      dsimp only
      rw [Scope.underlying_eq, Scope.underlyingWithin_here h]
      rfl
  | own h ih =>
      dsimp only
      rw [Scope.underlying_eq, Scope.underlyingWithin_own]
      exact ih hcovers htold
  | absent hq h =>
      dsimp only
      rw [Scope.underlying_eq, Scope.outcome_underlyingWithin_succ _ _ _ hq, h]
  | direct hq h hd =>
      dsimp only
      rw [Scope.underlying_eq, Scope.outcome_underlyingWithin_succ _ _ _ hq, h]
      exact if_neg (by rw [hd]; exact Bool.false_ne_true)
  | @through q name d type w v hq h hd hnext ih =>
      obtain ⟨hanswer, htold'⟩ := Work.told_ask htold q
      obtain ⟨n, hn, hends⟩ := hshort (.named (.declared q name))
      have hstep := Answers.aliasTarget?_of_found (hanswer ▸ h) hd
      dsimp only
      rw [Scope.underlying_eq, Scope.outcome_underlyingWithin_succ _ _ _ hq, h]
      dsimp only
      rw [if_pos hd]
      cases n with
      | zero => cases hstep.symm.trans hends
      | succ n =>
          -- One alias fewer is left, and one step fewer.
          have hrest := sc.outcome_underlyingWithin_eq (sc.linksWithin fuel pending)
            (hends _ hstep) (Nat.lt_sub_of_add_lt hn) (Nat.lt_of_succ_lt hn) htold'
          exact hrest.trans (ih (hcovers.restores ⟨rfl, rfl⟩) htold')

/-!
# The whole check
-/

inductive Scope.Calls (sc : Scope) : {α : Type} -> (Links -> Resolve α) -> Prop where
  | resolveType (file : String) (tparams : List String) (e : Source.TypeExpr) :
      Calls sc fun links => sc.resolveType links file tparams e
  | eval (file : String) (iota : Option Nat) (e : Source.Expr) :
      Calls sc fun links => (sc.eval links file iota e).run
  | conversionTarget (file : String) (e : Source.Expr) :
      Calls sc fun links => sc.conversionTarget links file e
  | underlying (type : GoType) : Calls sc fun links => sc.underlying links type
  /-- An alias, the structure of a declared type, or the value of a constant. -/
  | follow {k : Pending} (h : sc.Has k) : Calls sc fun links => links.follow k

theorem Scope.Calls.exists_trail {sc : Scope} {α : Type} {F : Links -> Resolve α}
    (h : sc.Calls F) :
    exists Q, Trail sc sc (fun _ _ => True) (fun _ => True) F F Q := by
  -- Any spelling is shared by a scope with itself.
  have hsetting : sc.Setting sc (fun _ _ => True) (fun _ => True) fun _ _ => True :=
    sc.setting_self fun _ _ => trivial
  cases h with
  | resolveType file tparams e =>
      exact ⟨_, trail_resolveType hsetting file tparams e fun _ _ => trivial⟩
  | eval file iota e => exact ⟨_, trail_eval hsetting file iota e fun _ _ => trivial⟩
  | conversionTarget file e =>
      exact ⟨_, trail_conversionTarget hsetting file e fun _ _ => trivial⟩
  | underlying type => exact ⟨_, Trail.behind type.within_all⟩
  | follow hk => exact ⟨_, Trail.follow hk⟩

theorem told_collect (p : LoadedPackage) (answers : Answers) :
    ((collect p).under answers).progress.Told answers := by
  intro q known hknown
  have hmoves := moves_collect p answers
  by_cases hasked : q ∈ (collect p).asked answers
  · exact Option.some.inj (hknown.symm.trans (hmoves.told q hasked))
  · cases hknown.symm.trans (hmoves.kept q hasked)

structure Ends (p : LoadedPackage) (answers : Answers) : Prop where
  /-- Every call returns, wherever the pass is. -/
  returns : forall {α : Type} {F : Links -> Resolve α},
    ((collect p).under answers).scope.Calls F -> forall w : Work, w.progress.Told answers ->
      exists a v, Runs ((collect p).under answers).scope answers F w a v
  /-- What was pending before a call is pending after it. -/
  restores : forall {α : Type} {F : Links -> Resolve α} {w : Work} {a : α} {v : Work},
    Runs ((collect p).under answers).scope answers F w a v -> w.Restores v
  /-- The pass is gone through with nothing pending in the end, and that is what the check
  finds. -/
  finishes : exists package v,
    Runs ((collect p).under answers).scope answers
      (fun links => ((collect p).under answers).scope.definitionsWith links p.name)
      ⟨((collect p).under answers).progress, [], ∅⟩ package v ∧
    v.resolving = [] ∧ v.evaluating = ∅ ∧
    (answers.Short -> (checkGo p).under answers = ⟨package, v.progress.errors⟩)

/-- The check of every package ends if no alias of another package is defined through itself. -/
theorem ends_of_grounded (p : LoadedPackage) (answers : Answers) (h : answers.Grounded) :
    Ends p answers := by
  constructor
  · intro α F hF w hw
    obtain ⟨Q, htrail⟩ := hF.exists_trail
    exact Scope.exists_run h htrail w hw
  · exact Runs.restores
  · have htrail := Scope.trail_definitionsWith
      (((collect p).under answers).scope.setting_self fun _ _ => trivial) p.name
    obtain ⟨package, v, hrun⟩ := Scope.exists_run h htrail
      ⟨((collect p).under answers).progress, [], ∅⟩ (told_collect p answers)
    refine ⟨package, v, hrun, hrun.restores.resolving, hrun.restores.evaluating, ?_⟩
    intro hshort
    have hcovers : ((collect p).under answers).scope.Covers
        ((collect p).under answers).scope.linkDepth []
        ⟨((collect p).under answers).progress, [], ∅⟩ := by
      refine ⟨fun k => ?_, List.nodup_nil, List.forall_mem_nil _, ?_⟩
      · match k with
        | .alias _ | .type _ => exact Iff.rfl
        | .const i => simp [Work.IsPending]
      · rw [Scope.length_allPending]
        exact Nat.lt_succ_self _
    have hsame := hrun.outcome_eq hshort hcovers (told_collect p answers)
    rw [under_checkGo]
    exact congrArg (fun r : CheckedPackage × Progress => (⟨r.1, r.2.errors⟩ : CheckOutcome)) hsame

/-!
# A package of knots
-/

def aliasPackage (path name : String) (target : GoType) : Package :=
  .ofChecked path .system none ⟨path, [⟨.declared path name, target, [], true, none⟩], [], []⟩

theorem underlying_of_aliasPackage {path name other : String} {target : GoType} {d : TypeDef}
    (h : (aliasPackage path name target).type? other = some d) : d.underlying = target := by
  have hentry : (other, d) ∈ [(name, (⟨.declared path name, target, [], true, none⟩ : TypeDef))] :=
    Table.mem_entries_iff.mpr h
  cases List.mem_singleton.mp hentry
  rfl

/-- The alias `d.A` stands for `e.B`, and that for `int`. -/
def chainAnswers : Answers
  | "d" => .ok (aliasPackage "d" "A" (.named (.declared "e" "B")))
  | "e" => .ok (aliasPackage "e" "B" (.basic .int))
  | q => .error (.packageNotFound q)

/-- The length of `M` is the constant `N`, whose value is to be converted to `M`. -/
def knotPackage : LoadedPackage :=
  .ofText ("package p\n\nimport \"d\"\n\ntype M [N]int\n\nconst N = M(1)\n\n" ++
    "const C d.A = 5\n")

def chainRank : GoType -> Nat
  | .named (.declared q _) => if q = "d" then 2 else if q = "e" then 1 else 0
  | _ => 0

theorem chainRank_lt {type next : GoType} (h : chainAnswers.aliasTarget? type = some next) :
    chainRank next < chainRank type := by
  obtain ⟨q, package, name, d, rfl, hanswer, hname, _, rfl⟩ := Answers.exists_of_aliasTarget? h
  unfold chainAnswers at hanswer
  split at hanswer
  · cases hanswer
    rw [underlying_of_aliasPackage hname]
    exact Nat.lt_succ_self 1
  · cases hanswer
    rw [underlying_of_aliasPackage hname]
    exact Nat.one_pos
  · cases hanswer

theorem grounded_chainAnswers : chainAnswers.Grounded := by
  refine Answers.grounded_of_finite ["d", "e"] ?_ ?_
  · intro q package hanswer
    unfold chainAnswers at hanswer
    split at hanswer
    · exact List.mem_cons_self
    · exact List.mem_cons_of_mem _ List.mem_cons_self
    · cases hanswer
  · intro type hcycle
    have hless : forall {next}, Relation.TransGen
        (fun type next => chainAnswers.aliasTarget? type = some next) type next ->
          chainRank next < chainRank type := by
      intro next hway
      induction hway with
      | single hnext => exact chainRank_lt hnext
      | tail _ hnext ih => exact (chainRank_lt hnext).trans ih
    exact Nat.lt_irrefl _ (hless hcycle)

theorem ends_of_grounded_knotPackage :
    chainAnswers.Grounded ∧ Ends knotPackage chainAnswers :=
  ⟨grounded_chainAnswers, ends_of_grounded knotPackage chainAnswers grounded_chainAnswers⟩

end GoAtlas
