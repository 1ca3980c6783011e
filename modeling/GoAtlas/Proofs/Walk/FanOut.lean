import GoAtlas.Walk.Scripted

/-!
# Fan-outs

Several visitors in one walk are again a visitor, so fan-outs can be nested.  Nesting does not
matter: a fan-out is determined by the visitors in it, from left to right, and visitors that do
nothing do not count.
-/

namespace GoAtlas

namespace Visitor

variable {σ ι : Type}

/-! # Laws of the fan-out -/

theorem enterAll_append (c : Context) (b : Branch) (vs ws : List (Visitor σ)) :
    enterAll c b (vs ++ ws) =
      (do
        match ← enterAll c b vs with
        | .skip => return .skip
        | .descend => enterAll c b ws) := by
  induction vs with
  | nil => simp [enterAll]
  | cons v vs ih =>
      simp only [List.cons_append, enterAll, ih, bind_assoc]
      apply bind_congr
      intro flow
      cases flow with
      | descend => rfl
      | skip => simp

theorem leaveAll_append (c : Context) (b : Branch) (vs ws : List (Visitor σ)) :
    leaveAll c b (vs ++ ws) =
      (do
        leaveAll c b vs
        leaveAll c b ws) := by
  induction vs with
  | nil => simp [leaveAll]
  | cons v vs ih => simp [leaveAll, ih]

theorem visitAll_append (c : Context) (l : Leaf) (vs ws : List (Visitor σ)) :
    visitAll c l (vs ++ ws) =
      (do
        visitAll c l vs
        visitAll c l ws) := by
  induction vs with
  | nil => simp [visitAll]
  | cons v vs ih => simp [visitAll, ih]

theorem enterAll_singleton (c : Context) (b : Branch) (v : Visitor σ) :
    enterAll c b [v] = v.enter c b := by
  calc
    enterAll c b [v] = v.enter c b >>= pure := by
      apply bind_congr
      intro flow
      cases flow <;> rfl
    _ = v.enter c b := bind_pure _

theorem all_singleton (v : Visitor σ) : all [v] = v := by
  simp [all, enterAll_singleton, leaveAll, visitAll]

theorem all_nil : all [] = (idle : Visitor σ) := rfl

theorem all_cons_all (vs ws : List (Visitor σ)) : all (all vs :: ws) = all (vs ++ ws) := by
  simp only [all, enterAll_append, leaveAll_append, visitAll_append]
  rfl

theorem all_cons_congr {v : Visitor σ} {vs rest rest' : List (Visitor σ)} (hv : v = all vs)
    (hrest : all rest = all rest') : all (v :: rest) = all (vs ++ rest') := by
  have happend : all (vs ++ rest) = all (vs ++ rest') := by
    simp only [all, mk.injEq] at hrest
    simp only [all, enterAll_append, leaveAll_append, visitAll_append]
    simp only [funext_iff] at hrest
    simp only [hrest]
  rw [hv, all_cons_all, happend]

/-! # Nested fan-outs -/

/-- How visitors are put together for a walk: alone, in fan-outs of any depth, and with
visitors that do nothing in between. -/
inductive Arrangement (ι : Type) where
  | one (i : ι)
  | idle
  | several (parts : List (Arrangement ι))

namespace Arrangement

mutual

def visitor (vs : ι -> Visitor σ) : Arrangement ι -> Visitor σ
  | one i => vs i
  | idle => Visitor.idle
  | several parts => Visitor.all (visitors vs parts)

def visitors (vs : ι -> Visitor σ) : List (Arrangement ι) -> List (Visitor σ)
  | [] => []
  | part :: rest => part.visitor vs :: visitors vs rest

end

mutual

def members : Arrangement ι -> List ι
  | one i => [i]
  | idle => []
  | several parts => membersOf parts

def membersOf : List (Arrangement ι) -> List ι
  | [] => []
  | part :: rest => part.members ++ membersOf rest

end

mutual

/-- An arrangement is the flat fan-out of its members. -/
theorem visitor_eq (vs : ι -> Visitor σ) (a : Arrangement ι) :
    a.visitor vs = all (a.members.map vs) := by
  cases a with
  | one i => exact (all_singleton (vs i)).symm
  | idle => exact all_nil.symm
  | several parts => exact all_visitors vs parts
termination_by structural a

theorem all_visitors (vs : ι -> Visitor σ) (parts : List (Arrangement ι)) :
    all (visitors vs parts) = all ((membersOf parts).map vs) := by
  match parts with
  | [] => rfl
  | part :: rest =>
      rw [visitors, membersOf, List.map_append]
      exact all_cons_congr (part.visitor_eq vs) (all_visitors vs rest)
termination_by structural parts

end

end Arrangement

/-! # Requests -/

inductive Request where
  | enter (c : Context) (b : Branch)
  | leave (c : Context) (b : Branch)
  | visit (c : Context) (l : Leaf)

def heard {α : Type} (i : ι) (request : Request) (step : Visit σ α) :
    Visit (σ × List (ι × Request)) α :=
  fun (s, log) =>
    let (answer, u) := step.run s
    (answer, u, log ++ [(i, request)])

/-- The visitor `i` with a log of all its requests.  Visitors in one walk share the log. -/
def monitored (i : ι) (v : Visitor σ) : Visitor (σ × List (ι × Request)) where
  enter c b := heard i (.enter c b) (v.enter c b)
  leave c b := heard i (.leave c b) (v.leave c b)
  visit c l := heard i (.visit c l) (v.visit c l)

/-- However its members are nested, an arrangement walks as their flat fan-out: the same visitors
get the same requests in the same order, with the same answers.  A script without hooks does
nothing, so it can stand wherever an arrangement is idle. -/
theorem walk_arrangement (vs : ι -> Visitor σ) (a : Arrangement ι) (root : TypeName) (t : GoType)
    (s : σ) :
    ((a.visitor vs).walk root t).run s = ((all (a.members.map vs)).walk root t).run s ∧
      ((a.visitor fun i => (vs i).monitored i).walk root t).run (s, []) =
        ((all (a.members.map fun i => (vs i).monitored i)).walk root t).run (s, []) ∧
      forall (skips fails : List Rule) (index : Nat),
        (Script.mk (some []) skips fails).visitor index = idle := by
  constructor
  · rw [a.visitor_eq]
  · constructor
    · rw [a.visitor_eq]
    · intro skips fails index
      rfl

end Visitor
end GoAtlas
