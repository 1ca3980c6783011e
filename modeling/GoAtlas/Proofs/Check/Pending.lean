import GoAtlas.Proofs.Check.Following
import GoAtlas.Proofs.Check.Links

/-!
# Links by what is pending

A link leads to a declaration that can be pending: an alias, a type or a constant.  What links
recall, record and say of the three differs only in the kind of the result, so that one statement
covers them all.
-/

namespace GoAtlas
namespace Scope
namespace Pending

abbrev Result : Pending -> Type
  | .alias _ => GoType
  | .type _ => GoType
  | .const _ => Option Valued

def nothing : (k : Pending) -> k.Result
  | .alias _ => .invalid
  | .type _ => .invalid
  | .const _ => none

def Knows (known : String -> String -> Prop) : (k : Pending) -> k.Result -> Prop
  | .alias _, found => found.Within True known
  | .type _, found => found.Within True known
  | .const _, value => forall x, value = some x -> x.2.Within True known

theorem knows_nothing (known : String -> String -> Prop) (k : Pending) :
    k.Knows known k.nothing := by
  match k with
  | .alias _ => exact GoType.within_invalid_iff.mpr trivial
  | .type _ => exact GoType.within_invalid_iff.mpr trivial
  | .const _ =>
      intro x hx
      cases hx

theorem knows_all (k : Pending) (a : k.Result) : k.Knows (fun _ _ => True) a := by
  match k with
  | .alias _ | .type _ => exact GoType.within_all _
  | .const _ => exact fun x _ => x.2.within_all

end Pending
end Scope

open Scope (Pending)

def Links.follow (links : Links) : (k : Pending) -> Resolve k.Result
  | .alias name => links.aliased name
  | .type name => links.underlying name
  | .const i => links.const i

namespace Progress

def recalled (p : Progress) : (k : Pending) -> Option k.Result
  | .alias name => p.aliases.get? name
  | .type name => p.underlying.get? name
  | .const i => p.values.lookup i

def record (p : Progress) : (k : Pending) -> k.Result -> Progress
  | .alias name, type => p.recordAlias name type
  | .type name, type => p.recordUnderlying name type
  | .const i, value => p.recordValue i value

@[simp] theorem errors_record (p : Progress) (k : Pending) (a : k.Result) :
    (p.record k a).errors = p.errors := by
  match k with
  | .alias _ | .type _ | .const _ => rfl

@[simp] theorem packages_record (p : Progress) (k : Pending) (a : k.Result) :
    (p.record k a).packages = p.packages := by
  match k with
  | .alias _ | .type _ | .const _ => rfl

theorem forall_recalled_record {p : Progress} {P : (k : Pending) -> k.Result -> Prop}
    (h : forall k a, p.recalled k = some a -> P k a) {j : Pending} {b : j.Result} (hb : P j b) :
    forall k a, (p.record j b).recalled k = some a -> P k a := by
  intro k
  match j, k with
  | .alias _, .alias name => exact Table.forall_get?_insert (fun name => h (.alias name)) hb name
  | .type _, .type name => exact Table.forall_get?_insert (fun name => h (.type name)) hb name
  | .const i, .const j =>
      intro a ha
      have hlookup : (p.values.lookup j).or ([(i, b)].lookup j) = some a :=
        List.lookup_append.symm.trans ha
      rcases Option.or_eq_some_iff.mp hlookup with hold | ⟨_, hnew⟩
      · exact h (.const j) a hold
      · rw [List.lookup_cons, List.lookup_nil] at hnew
        split at hnew
        · next hij =>
            cases beq_iff_eq.mp hij
            cases hnew
            exact hb
        · cases hnew
  | .type _, .alias name | .const _, .alias name => exact h (.alias name)
  | .alias _, .type name | .const _, .type name => exact h (.type name)
  | .alias _, .const i | .type _, .const i => exact h (.const i)

theorem recalled_record_congr {p p' : Progress} (h : forall k, p'.recalled k = p.recalled k)
    (j : Pending) (b : j.Result) (k : Pending) :
    (p'.record j b).recalled k = (p.record j b).recalled k := by
  match j, k with
  | .alias _, .alias name =>
      refine (Table.get?_insert _ _ _ _).trans (Eq.trans ?_ (Table.get?_insert _ _ _ _).symm)
      rw [show p'.aliases.get? name = p.aliases.get? name from h (.alias name)]
  | .type _, .type name =>
      refine (Table.get?_insert _ _ _ _).trans (Eq.trans ?_ (Table.get?_insert _ _ _ _).symm)
      rw [show p'.underlying.get? name = p.underlying.get? name from h (.type name)]
  | .const _, .const i =>
      refine List.lookup_append.trans (Eq.trans ?_ List.lookup_append.symm)
      rw [show p'.values.lookup i = p.values.lookup i from h (.const i)]
  | .type _, .alias name | .const _, .alias name => exact h (.alias name)
  | .alias _, .type name | .const _, .type name => exact h (.type name)
  | .alias _, .const i | .type _, .const i => exact h (.const i)

def complained (p : Progress) (file : String) (line : Nat) (isSoft : Bool)
    (complaint : Complaint) : Progress :=
  { p with errors := p.errors ++ [⟨complaint, isSoft, some file, some line⟩] }

end Progress

/-- A declaration as links see it: its place, the complaint that it needs itself, and what it
says. -/
structure Saying (α : Type) where
  file : String
  line : Nat
  circular : Complaint
  body : Links -> Resolve α

namespace Scope

def saying? (sc : Scope) : (k : Pending) -> Option (Saying k.Result)
  | .alias name => (sc.types.get? name).map fun d =>
      ⟨d.file, d.spec.extent.line, .recursiveAlias name, fun links => sc.aliasBody links d⟩
  | .type name => (sc.types.get? name).map fun d =>
      ⟨d.file, d.spec.extent.line, .recursiveType name, fun links => sc.typeBody links d⟩
  | .const i => sc.consts[i]?.map fun d =>
      ⟨d.file, d.spec.line, .initializationCycle d.name, fun links => sc.constBody links d⟩

/-- Whether links may be asked for it: constants go by their numbers. -/
def Has (sc : Scope) : Pending -> Prop
  | .const i => i < sc.consts.length
  | _ => True

theorem mem_allPending_of_saying {sc : Scope} {k : Pending} {d : Saying k.Result}
    (h : sc.saying? k = some d) : k ∈ sc.allPending := by
  match k with
  | .alias name =>
      rcases Option.map_eq_some_iff.mp h with ⟨d, hd, _⟩
      exact alias_mem_allPending hd
  | .type name =>
      rcases Option.map_eq_some_iff.mp h with ⟨d, hd, _⟩
      exact type_mem_allPending hd
  | .const i =>
      rcases Option.map_eq_some_iff.mp h with ⟨d, hd, _⟩
      exact const_mem_allPending hd

/-!
# Following a link
-/

section Follow

variable {sc : Scope} {answers : Answers} {fuel : Nat} {pending : List Pending} {p : Progress}
  {k : Pending}

/-- All links are followed in the same way: to what is known, or else to what the declaration
says, unless that is being worked out. -/
theorem follow_eq :
    (sc.linksWithin (fuel + 1) pending).follow k = do
      match (← get).recalled k, sc.saying? k with
      | some a, _ => return a
      | none, none => return k.nothing
      | none, some d =>
          if pending.contains k then
            Resolve.complain d.file d.line d.circular
            return k.nothing
          else
            let a ← d.body (sc.linksWithin fuel (k :: pending))
            modify fun p => p.record k a
            return a := by
  match k with
  | .alias name =>
      refine bind_congr (x := get) fun p => ?_
      unfold Progress.recalled saying?
      dsimp only
      cases p.aliases.get? name with
      | some type => rfl
      | none =>
          cases sc.types.get? name with
          | none => rfl
          | some d => rfl
  | .type name =>
      refine bind_congr (x := get) fun p => ?_
      unfold Progress.recalled saying?
      dsimp only
      cases p.underlying.get? name with
      | some type => rfl
      | none =>
          cases sc.types.get? name with
          | none => rfl
          | some d =>
              dsimp only [Option.map]
              split
              · rfl
              · unfold typeBody
                rw [bind_assoc]
                rfl
  | .const i =>
      refine bind_congr (x := get) fun p => ?_
      unfold Progress.recalled saying?
      dsimp only
      cases p.values.lookup i with
      | some value => rfl
      | none =>
          cases sc.consts[i]? with
          | none => rfl
          | some d =>
              dsimp only [Option.map]
              split
              · rfl
              · unfold constBody
                cases d.expr with
                | none => rfl
                | some expr =>
                    dsimp only
                    rw [bind_assoc]
                    refine bind_congr fun result => ?_
                    cases result with
                    | ok value => rfl
                    | error cause => rfl

theorem outcome_follow :
    ((sc.linksWithin (fuel + 1) pending).follow k).outcome answers p =
      match p.recalled k, sc.saying? k with
      | some a, _ => (a, p)
      | none, none => (k.nothing, p)
      | none, some d =>
          if pending.contains k then (k.nothing, p.complained d.file d.line false d.circular)
          else
            let r := (d.body (sc.linksWithin fuel (k :: pending))).outcome answers p
            (r.1, r.2.record k r.1) := by
  rw [follow_eq, Resolve.outcome_bind, Resolve.outcome_get]
  dsimp only
  cases p.recalled k with
  | some a => rfl
  | none =>
      cases sc.saying? k with
      | none => rfl
      | some d =>
          dsimp only
          split
          · rfl
          · rw [Resolve.outcome_bind]
            rfl

theorem outcome_follow_known {a : k.Result} (h : p.recalled k = some a) :
    ((sc.linksWithin (fuel + 1) pending).follow k).outcome answers p = (a, p) := by
  rw [outcome_follow, h]

theorem outcome_follow_missing (h : p.recalled k = none) (hd : sc.saying? k = none) :
    ((sc.linksWithin (fuel + 1) pending).follow k).outcome answers p = (k.nothing, p) := by
  rw [outcome_follow, h, hd]

theorem outcome_follow_circular {d : Saying k.Result} (h : p.recalled k = none)
    (hd : sc.saying? k = some d) (hk : k ∈ pending) :
    ((sc.linksWithin (fuel + 1) pending).follow k).outcome answers p =
      (k.nothing, p.complained d.file d.line false d.circular) := by
  rw [outcome_follow, h, hd]
  exact if_pos (List.contains_iff_mem.mpr hk)

theorem outcome_follow_new {d : Saying k.Result} (h : p.recalled k = none)
    (hd : sc.saying? k = some d) (hk : k ∉ pending) :
    ((sc.linksWithin (fuel + 1) pending).follow k).outcome answers p =
      (((d.body (sc.linksWithin fuel (k :: pending))).outcome answers p).1,
        ((d.body (sc.linksWithin fuel (k :: pending))).outcome answers p).2.record k
          ((d.body (sc.linksWithin fuel (k :: pending))).outcome answers p).1) := by
  rw [outcome_follow, h, hd]
  exact if_neg fun hmem => hk (List.contains_iff_mem.mp hmem)

/-- A link leads to what is known, to nothing, or to what the declaration says. -/
theorem follow_cases {P : k.Result × Progress -> Prop}
    (hknown : forall a, p.recalled k = some a -> P (a, p))
    (hmissing : sc.saying? k = none -> P (k.nothing, p))
    (hcircular : forall d, sc.saying? k = some d -> k ∈ pending ->
      P (k.nothing, p.complained d.file d.line false d.circular))
    (hnew : forall d, sc.saying? k = some d -> k ∉ pending ->
      P (((d.body (sc.linksWithin fuel (k :: pending))).outcome answers p).1,
        ((d.body (sc.linksWithin fuel (k :: pending))).outcome answers p).2.record k
          ((d.body (sc.linksWithin fuel (k :: pending))).outcome answers p).1)) :
    P (((sc.linksWithin (fuel + 1) pending).follow k).outcome answers p) := by
  cases hrecalled : p.recalled k with
  | some a =>
      rw [outcome_follow_known hrecalled]
      exact hknown a hrecalled
  | none =>
      cases hd : sc.saying? k with
      | none =>
          rw [outcome_follow_missing hrecalled hd]
          exact hmissing hd
      | some d =>
          by_cases hk : k ∈ pending
          · rw [outcome_follow_circular hrecalled hd hk]
            exact hcircular d hd hk
          · rw [outcome_follow_new hrecalled hd hk]
            exact hnew d hd hk

end Follow
end Scope
end GoAtlas
