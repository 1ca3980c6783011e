import GoAtlas.Proofs.Walk.Traversal
import Mathlib.Data.Fin.VecNotation
import Mathlib.Data.List.FinRange
import Mathlib.Logic.Function.Basic

/-!
# Visitors that do not interfere

Visitors with states of their own walk together.  If none of them fails or skips a branch when it
walks alone, then in the common walk each gets the calls of its own walk and ends in the same
state.
-/

namespace GoAtlas

/-! # Traversals without skips -/

def HookCall.skips : HookCall -> Bool
  | .enter _ _ .skip => true
  | _ => false

def Unskipped (calls : List HookCall) : Prop :=
  forall call, call ∈ calls -> call.skips = false

namespace Unskipped

instance (calls : List HookCall) : Decidable (Unskipped calls) :=
  inferInstanceAs (Decidable (forall call, call ∈ calls -> call.skips = false))

@[simp] theorem nil : Unskipped [] := by
  simp [Unskipped]

@[simp] theorem cons_iff {call : HookCall} {calls : List HookCall} :
    Unskipped (call :: calls) ↔ call.skips = false ∧ Unskipped calls :=
  List.forall_mem_cons

@[simp] theorem append_iff {before after : List HookCall} :
    Unskipped (before ++ after) ↔ Unskipped before ∧ Unskipped after :=
  List.forall_mem_append

end Unskipped

/-- Places have at most one traversal that skips nothing. -/
theorem Traversal.eq_of_unskipped {spots : List Spot} {calls calls' : List HookCall}
    (h : Traversal spots calls) (h' : Traversal spots calls') (hcalls : Unskipped calls)
    (hcalls' : Unskipped calls') : calls = calls' := by
  induction h generalizing calls' with
  | done =>
      cases h'
      rfl
  | leaf _ ih =>
      cases h' with
      | leaf rest => simp [ih rest (Unskipped.cons_iff.1 hcalls).2 (Unskipped.cons_iff.1 hcalls').2]
  | skipped _ _ => cases (Unskipped.cons_iff.1 hcalls).1
  | entered _ _ ihwithin ihrest =>
      cases h' with
      | skipped rest => cases (Unskipped.cons_iff.1 hcalls').1
      | entered within rest =>
          simp only [Unskipped.cons_iff, Unskipped.append_iff] at hcalls hcalls'
          rw [ihwithin within hcalls.2.1 hcalls'.2.1, ihrest rest hcalls.2.2.2 hcalls'.2.2.2]

namespace GoType

mutual

/-- There is no interface, function or channel to walk into. -/
def walkable : GoType -> Bool
  | basic _ => true
  | named _ => true
  | struct fields => walkableFields fields
  | slice elem => elem.walkable
  | array _ elem => elem.walkable
  | pointer elem => elem.walkable
  | map key value => key.walkable && value.walkable
  | interface _ _ => false
  | func _ => false
  | chan _ _ => false

def walkableFields : List (Field GoType) -> Bool
  | [] => true
  | ⟨_, type, _, _, _⟩ :: rest => type.walkable && walkableFields rest

end

end GoType

namespace Spot

theorem exists_traversal_cons {c : Context} {b : Branch} {inside spots : List Spot}
    (hinside : exists calls, Traversal inside calls ∧ Unskipped calls)
    (hspots : exists calls, Traversal spots calls ∧ Unskipped calls) :
    exists calls, Traversal (branch c b inside :: spots) calls ∧ Unskipped calls := by
  obtain ⟨below, hwithin, hbelow⟩ := hinside
  obtain ⟨calls, hrest, hcalls⟩ := hspots
  exact ⟨_, .entered hwithin hrest, by simp [HookCall.skips, hbelow, hcalls]⟩

theorem exists_traversal_branch {c : Context} {b : Branch} {inside : List Spot}
    (hinside : exists calls, Traversal inside calls ∧ Unskipped calls) :
    exists calls, Traversal [branch c b inside] calls ∧ Unskipped calls :=
  exists_traversal_cons hinside ⟨[], .done, .nil⟩

mutual

theorem exists_traversal_listFrom {root : TypeName} {stack : List GoType} {package name : String}
    (t : GoType) (h : t.walkable) :
    exists calls, Traversal (listFrom root stack package name t) calls ∧ Unskipped calls := by
  cases t with
  | basic kind => exact ⟨_, .leaf .done, by simp [HookCall.skips]⟩
  | named n => exact ⟨_, .leaf .done, by simp [HookCall.skips]⟩
  | struct fields => exact exists_traversal_branch (exists_traversal_listFields fields h)
  | slice elem => exact exists_traversal_branch (exists_traversal_listFrom elem h)
  | array len elem => exact exists_traversal_branch (exists_traversal_listFrom elem h)
  | pointer elem => exact exists_traversal_branch (exists_traversal_listFrom elem h)
  | map key value =>
      obtain ⟨hkey, hvalue⟩ := Bool.and_eq_true_iff.1 h
      exact exists_traversal_cons (exists_traversal_listFrom key hkey)
        (exists_traversal_branch (exists_traversal_listFrom value hvalue))
  | interface methods embedded => cases h
  | func signature => cases h
  | chan dir elem => cases h
termination_by structural t

theorem exists_traversal_listFields {root : TypeName} {stack : List GoType} {info : StructInfo}
    (fields : List (Field GoType)) (h : GoType.walkableFields fields) :
    exists calls, Traversal (listFields root stack info fields) calls ∧ Unskipped calls := by
  match fields with
  | [] => exact ⟨[], .done, .nil⟩
  | ⟨name, type, tag, embedded, package⟩ :: rest =>
      obtain ⟨htype, hrest⟩ := Bool.and_eq_true_iff.1 h
      exact exists_traversal_cons (exists_traversal_listFrom type htype)
        (exists_traversal_listFields rest hrest)
termination_by structural fields

end

end Spot

namespace HookCall

variable {σ : Type} {v : Visitor σ} {vs : List (Visitor σ)} {s m u : σ}

theorem takes_all_nil {call : HookCall} (h : call.skips = false) :
    call.Takes (Visitor.all []) s s := by
  cases call with
  | enter c b answer =>
      cases answer with
      | descend => rfl
      | skip => cases h
  | leave c b => rfl
  | visit c l => rfl

theorem takes_all_cons {call : HookCall} (h : call.skips = false)
    (hfirst : call.Takes v s m) (hrest : call.Takes (Visitor.all vs) m u) :
    call.Takes (Visitor.all (v :: vs)) s u := by
  cases call with
  | enter c b answer =>
      cases answer with
      | descend => exact Visit.run_bind_eq_ok_iff.2 ⟨.descend, m, hfirst, hrest⟩
      | skip => cases h
  | leave c b => exact Visit.run_bind_eq_ok_iff.2 ⟨(), m, hfirst, hrest⟩
  | visit c l => exact Visit.run_bind_eq_ok_iff.2 ⟨(), m, hfirst, hrest⟩

end HookCall

/-! # States of their own -/

variable {n : Nat} {σ : Fin n -> Type} {s u : forall i, σ i}

def Visit.on {α : Type} (i : Fin n) (step : Visit (σ i) α) : Visit (forall i, σ i) α :=
  fun states =>
    let (answer, state) := step.run (states i)
    (answer, Function.update states i state)

theorem Visit.run_on {α : Type} {i : Fin n} {step : Visit (σ i) α} {a : α} {m : σ i}
    (h : step.run (s i) = (.ok a, m)) :
    (Visit.on i step).run s = (.ok a, Function.update s i m) := by
  have hrun : (Visit.on i step).run s =
      ((step.run (s i)).1, Function.update s i (step.run (s i)).2) := rfl
  rw [hrun, h]

namespace Visitor

def on (i : Fin n) (v : Visitor (σ i)) : Visitor (forall i, σ i) where
  enter c b := Visit.on i (v.enter c b)
  leave c b := Visit.on i (v.leave c b)
  visit c l := Visit.on i (v.visit c l)

def together (vs : forall i, Visitor (σ i)) : Visitor (forall i, σ i) :=
  all ((List.finRange n).map fun i => (vs i).on i)

variable {vs : forall i, Visitor (σ i)} {call : HookCall} {m : forall i, σ i}

theorem takes_on {i : Fin n} {v : Visitor (σ i)} {m : σ i} (h : call.Takes v (s i) m) :
    call.Takes (v.on i) s (Function.update s i m) := by
  cases call with
  | enter c b answer => exact Visit.run_on h
  | leave c b => exact Visit.run_on h
  | visit c l => exact Visit.run_on h

/-- A call that all visitors of a list answer alone is answered by all of them together, and the
states of the others stay as they are. -/
theorem takes_members (hcall : call.skips = false) {members : List (Fin n)}
    (hnodup : members.Nodup) (h : forall i, i ∈ members -> call.Takes (vs i) (s i) (m i)) :
    call.Takes (all (members.map fun i => (vs i).on i)) s
      (fun i => if i ∈ members then m i else s i) := by
  induction members generalizing s with
  | nil => simpa using HookCall.takes_all_nil hcall
  | cons i rest ih =>
      obtain ⟨hfresh, hnodup⟩ := List.nodup_cons.1 hnodup
      have hrest := ih (s := Function.update s i (m i)) hnodup (by
        intro j hj
        have hne : j ≠ i := by
          rintro rfl
          exact hfresh hj
        rw [Function.update_of_ne hne]
        exact h j (List.mem_cons_of_mem i hj))
      have hend : (fun j => if j ∈ rest then m j else Function.update s i (m i) j) =
          fun j => if j ∈ i :: rest then m j else s j := by
        funext j
        by_cases hj : j = i
        · subst hj
          simp
        · simp [hj]
      rw [hend] at hrest
      exact HookCall.takes_all_cons hcall (takes_on (h i List.mem_cons_self)) hrest

theorem takes_together (hcall : call.skips = false)
    (h : forall i, call.Takes (vs i) (s i) (m i)) : call.Takes (together vs) s m := by
  simpa [together] using takes_members hcall (List.nodup_finRange n) fun i _ => h i

theorem answered_together {calls : List HookCall} (hcalls : Unskipped calls)
    (h : forall i, (vs i).Answered (s i) calls (u i)) : (together vs).Answered s calls u := by
  induction calls generalizing s with
  | nil =>
      have heq : s = u := funext fun i => Answered.nil_iff.1 (h i)
      exact Answered.nil_iff.2 heq
  | cons call calls ih =>
      obtain ⟨hcall, hcalls⟩ := Unskipped.cons_iff.1 hcalls
      choose m hfirst hrest using fun i => Answered.cons_iff.1 (h i)
      exact .call (takes_together hcall hfirst) (ih hcalls hrest)

/-- Visitors that answer the same traversal alone walk it together. -/
theorem run_together {root : TypeName} {t : GoType} {calls : List HookCall}
    (htraversal : Traversal (Spot.list root t) calls) (hcalls : Unskipped calls)
    (h : forall i, (vs i).Answered (s i) calls (u i)) :
    ((together vs).walk root t).run s = (.ok (), u) :=
  (run_walkFrom_iff t).2 ⟨calls, htraversal, answered_together hcalls h⟩

theorem traversal_calls {σ : Type} {v : Visitor σ} {root : TypeName} {t : GoType} {s u : σ}
    (h : (v.walk root t).run s = (.ok (), u)) :
    Traversal (Spot.list root t) (v.calls root t s) ∧ v.Answered s (v.calls root t s) u := by
  obtain ⟨calls, htraversal, hanswered⟩ := (run_walkFrom_iff t).1 h
  have hcalls : v.calls root t s = calls := by
    rw [Visitor.calls, run_recorded_walk htraversal hanswered]
  rw [hcalls]
  exact ⟨htraversal, hanswered⟩

/-- Visitors whose walks end well and skip nothing do not notice each other: their common walk
ends well, and each has the calls and the state of its own walk.  If there is no visitor, it is
the type that has to be walkable. -/
theorem walk_together (vs : forall i, Visitor (σ i)) (root : TypeName) (t : GoType)
    {s u : forall i, σ i} (hsome : 0 < n ∨ t.walkable)
    (hsolo : forall i, ((vs i).walk root t).run (s i) = (.ok (), u i))
    (hcalls : forall i, Unskipped ((vs i).calls root t (s i))) :
    ((together vs).walk root t).run s = (.ok (), u) ∧
      ((together fun i => (vs i).recorded).walk root t).run (fun i => (s i, [])) =
        (.ok (), fun i => (u i, (vs i).calls root t (s i))) := by
  have hcommon : exists calls, Traversal (Spot.list root t) calls ∧ Unskipped calls := by
    rcases hsome with hpos | hwalkable
    · exact ⟨_, (traversal_calls (hsolo ⟨0, hpos⟩)).1, hcalls ⟨0, hpos⟩⟩
    · exact Spot.exists_traversal_listFrom t hwalkable
  obtain ⟨calls, htraversal, hunskipped⟩ := hcommon
  have hsame (i : Fin n) : (vs i).calls root t (s i) = calls :=
    (traversal_calls (hsolo i)).1.eq_of_unskipped htraversal (hcalls i) hunskipped
  have hanswered (i : Fin n) : (vs i).Answered (s i) calls (u i) :=
    hsame i ▸ (traversal_calls (hsolo i)).2
  constructor
  · exact run_together htraversal hunskipped hanswered
  · simp only [hsame]
    exact run_together htraversal hunskipped fun i =>
      answered_recorded_iff.2 ⟨hanswered i, rfl⟩

def counter : Visitor Nat where
  enter _ _ := do
    modify (· + 1)
    return .descend
  leave _ _ := modify (· + 1)
  visit _ _ := modify (· + 1)

def deepest : Visitor Nat where
  enter _ _ := return .descend
  leave _ _ := return ()
  visit c _ := modify (max c.depth)

theorem walk_together_counter_deepest :
    (forall i, ((![counter, deepest] i).walk (.declared "p" "S") mapAndPointer).run (![0, 0] i) =
        (.ok (), ![15, 2] i)) ∧
      ((together ![counter, deepest]).walk (.declared "p" "S") mapAndPointer).run ![0, 0] =
        (.ok (), ![15, 2]) := by
  have hsolo : forall i,
      ((![counter, deepest] i).walk (.declared "p" "S") mapAndPointer).run (![0, 0] i) =
        (.ok (), ![15, 2] i) := by
    rw [Fin.forall_fin_two]
    exact ⟨rfl, rfl⟩
  have hcalls : forall i,
      Unskipped ((![counter, deepest] i).calls (.declared "p" "S") mapAndPointer (![0, 0] i)) := by
    rw [Fin.forall_fin_two]
    exact ⟨by decide +kernel, by decide +kernel⟩
  exact ⟨hsolo, (walk_together ![counter, deepest] (.declared "p" "S") mapAndPointer
    (.inl (by decide)) hsolo hcalls).1⟩

/-- A walk without visitors fails too if it comes to a type that cannot be walked, although no
visitor fails or skips a branch. -/
theorem walk_together_nobody_chan :
    let nobody : Fin 0 -> Visitor Unit := nofun
    let root : TypeName := .declared "p" "T"
    let t : GoType := .chan .both (.basic .int)
    (forall i, ((nobody i).walk root t).run () = (.ok (), ())) ∧
      (forall i, Unskipped ((nobody i).calls root t ())) ∧
      ((together nobody).walk root t).run nofun =
        (.error (.unhandledKind "chan (chan int)"), nofun) := by
  constructor
  · exact nofun
  · constructor
    · exact nofun
    · rfl

end Visitor
end GoAtlas
