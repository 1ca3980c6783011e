import GoAtlas.Walk

/-!
# Traversals

The places of a type can be listed without a visitor: leaves, and branches with the places
inside them.  A traversal of these places is a sequence of answered calls.  It visits every
leaf, and a branch is either entered, traversed and left, or skipped.  A walk that ends well
makes the one traversal that its visitor answers.
-/

namespace GoAtlas

/-! # Calls -/

/-- A call of a hook that was answered.  The answer to entering a branch is a flow. -/
inductive HookCall where
  | enter (c : Context) (b : Branch) (answer : Flow)
  | leave (c : Context) (b : Branch)
  | visit (c : Context) (l : Leaf)

namespace HookCall

variable {σ : Type}

def Takes (v : Visitor σ) (s u : σ) : HookCall -> Prop
  | enter c b answer => (v.enter c b).run s = (.ok answer, u)
  | leave c b => (v.leave c b).run s = (.ok (), u)
  | visit c l => (v.visit c l).run s = (.ok (), u)

end HookCall

inductive Visitor.Answered {σ : Type} (v : Visitor σ) : σ -> List HookCall -> σ -> Prop
  | done (s : σ) : Answered v s [] s
  | call {s m u : σ} {call : HookCall} {calls : List HookCall}
      (first : call.Takes v s m) (rest : Answered v m calls u) :
      Answered v s (call :: calls) u

/-- Entered branches are left in reverse order, by calls with the same arguments.  `opened` are
the branches still to be left, innermost first. -/
inductive Bracketed : List (Context × Branch) -> List HookCall -> Prop
  | done : Bracketed [] []
  | enter {opened : List (Context × Branch)} {c : Context} {b : Branch} {calls : List HookCall}
      (rest : Bracketed ((c, b) :: opened) calls) :
      Bracketed opened (.enter c b .descend :: calls)
  | skip {opened : List (Context × Branch)} {c : Context} {b : Branch} {calls : List HookCall}
      (rest : Bracketed opened calls) :
      Bracketed opened (.enter c b .skip :: calls)
  | leave {opened : List (Context × Branch)} {c : Context} {b : Branch} {calls : List HookCall}
      (rest : Bracketed opened calls) :
      Bracketed ((c, b) :: opened) (.leave c b :: calls)
  | visit {opened : List (Context × Branch)} {c : Context} {l : Leaf} {calls : List HookCall}
      (rest : Bracketed opened calls) :
      Bracketed opened (.visit c l :: calls)

/-! # Places -/

/-- A place of a type.  A type that cannot be walked is a closed place. -/
inductive Spot where
  | leaf (c : Context) (l : Leaf)
  | branch (c : Context) (b : Branch) (inside : List Spot)
  | closed (t : GoType)

namespace Spot

mutual

/-- The places of a type below `stack`: one leaf, one branch, or the two halves of a map. -/
def listFrom (root : TypeName) (stack : List GoType) (package name : String) :
    GoType -> List Spot
  | .basic kind => [leaf ⟨stack, root⟩ (.basic kind)]
  | .named n => [leaf ⟨stack, root⟩ (.named n)]
  | .struct fields =>
      let stack := stack ++ [.struct fields]
      let info : StructInfo := ⟨package, name, root, fields⟩
      [branch ⟨stack, root⟩ (.struct info) (listFields root stack info fields)]
  | .slice elem =>
      let stack := stack ++ [.slice elem]
      [branch ⟨stack, root⟩ (.slice elem) (listFrom root stack package elem.text elem)]
  | .array len elem =>
      let stack := stack ++ [.array len elem]
      [branch ⟨stack, root⟩ (.array len elem) (listFrom root stack package elem.text elem)]
  | .pointer elem =>
      let stack := stack ++ [.pointer elem]
      [branch ⟨stack, root⟩ (.pointer elem) (listFrom root stack package elem.text elem)]
  | .map key value =>
      let stack := stack ++ [.map key value]
      [branch ⟨stack, root⟩ (.mapKey key) (listFrom root stack package key.text key),
        branch ⟨stack, root⟩ (.mapElem value) (listFrom root stack package value.text value)]
  | .interface methods embedded => [closed (.interface methods embedded)]
  | .func signature => [closed (.func signature)]
  | .chan dir elem => [closed (.chan dir elem)]

def listFields (root : TypeName) (stack : List GoType) (info : StructInfo) :
    List (Field GoType) -> List Spot
  | [] => []
  | ⟨name, type, tag, embedded, package⟩ :: rest =>
      branch ⟨stack, root⟩ (.field info ⟨name, type, tag, embedded, package⟩)
        (listFrom root stack package name type) :: listFields root stack info rest

end

def list (root : TypeName) (t : GoType) : List Spot :=
  listFrom root [] root.packagePath root.name t

end Spot

/-- The calls go through the places from left to right.  Closed places have no traversal. -/
inductive Traversal : List Spot -> List HookCall -> Prop
  | done : Traversal [] []
  | leaf {c : Context} {l : Leaf} {spots : List Spot} {calls : List HookCall}
      (rest : Traversal spots calls) :
      Traversal (.leaf c l :: spots) (.visit c l :: calls)
  | skipped {c : Context} {b : Branch} {inside spots : List Spot} {calls : List HookCall}
      (rest : Traversal spots calls) :
      Traversal (.branch c b inside :: spots) (.enter c b .skip :: calls)
  | entered {c : Context} {b : Branch} {inside spots : List Spot} {below calls : List HookCall}
      (within : Traversal inside below) (rest : Traversal spots calls) :
      Traversal (.branch c b inside :: spots)
        (.enter c b .descend :: (below ++ .leave c b :: calls))

theorem Traversal.bracketed_append {spots : List Spot} {calls : List HookCall}
    (h : Traversal spots calls) {opened : List (Context × Branch)} {after : List HookCall}
    (hafter : Bracketed opened after) : Bracketed opened (calls ++ after) := by
  induction h generalizing opened after with
  | done => exact hafter
  | leaf _ ih => exact .visit (ih hafter)
  | skipped _ ih => exact .skip (ih hafter)
  | @entered c b _ _ below calls _ _ ihwithin ihrest =>
      have hleave : Bracketed ((c, b) :: opened) (.leave c b :: (calls ++ after)) :=
        .leave (ihrest hafter)
      simpa using Bracketed.enter (ihwithin hleave)

theorem Traversal.bracketed {spots : List Spot} {calls : List HookCall}
    (h : Traversal spots calls) : Bracketed [] calls := by
  simpa using h.bracketed_append .done

/-! # Runs of a visitor -/

namespace Visit

variable {σ α β : Type}

theorem run_bind_eq_ok_iff {x : Visit σ α} {f : α -> Visit σ β} {s u : σ} {b : β} :
    (x >>= f).run s = (.ok b, u) ↔
      exists a m, x.run s = (.ok a, m) ∧ (f a).run m = (.ok b, u) := by
  have hstep : (x >>= f).run s = (ExceptT.bindCont f (x.run s).1) (x.run s).2 := rfl
  rw [hstep]
  rcases hx : x.run s with ⟨_ | a, m⟩
  · constructor
    · intro h
      cases h
    · rintro ⟨a, m, h, _⟩
      cases h
  · constructor
    · intro h
      exact ⟨a, m, rfl, h⟩
    · rintro ⟨a, m, h, hf⟩
      cases h
      exact hf

theorem run_bind_of_ok {x : Visit σ α} {f : α -> Visit σ β} {s m : σ} {a : α}
    (h : x.run s = (.ok a, m)) : (x >>= f).run s = (f a).run m := by
  have hstep : (x >>= f).run s = (ExceptT.bindCont f (x.run s).1) (x.run s).2 := rfl
  rw [hstep, h]
  rfl

theorem run_bind_of_error {x : Visit σ α} {f : α -> Visit σ β} {s m : σ} {error : Error}
    (h : x.run s = (.error error, m)) : (x >>= f).run s = (.error error, m) := by
  have hstep : (x >>= f).run s = (ExceptT.bindCont f (x.run s).1) (x.run s).2 := rfl
  rw [hstep, h]
  rfl

@[simp] theorem run_return_eq_ok_iff {s u : σ} :
    (return () : Visit σ Unit).run s = (.ok (), u) ↔ s = u := by
  constructor
  · intro h
    cases h
    rfl
  · rintro rfl
    rfl

end Visit

namespace Visitor.Answered

variable {σ : Type} {v : Visitor σ} {s u : σ}

@[simp] theorem nil_iff : v.Answered s [] u ↔ s = u := by
  constructor
  · intro h
    cases h
    rfl
  · rintro rfl
    exact .done s

@[simp] theorem cons_iff {call : HookCall} {calls : List HookCall} :
    v.Answered s (call :: calls) u ↔
      exists m, call.Takes v s m ∧ v.Answered m calls u := by
  constructor
  · intro h
    cases h with
    | call first rest => exact ⟨_, first, rest⟩
  · rintro ⟨m, first, rest⟩
    exact .call first rest

theorem append_iff {before after : List HookCall} :
    v.Answered s (before ++ after) u ↔
      exists m, v.Answered s before m ∧ v.Answered m after u := by
  induction before generalizing s with
  | nil => simp
  | cons call before ih =>
      simp only [List.cons_append, cons_iff, ih]
      constructor
      · rintro ⟨k, first, m, hbefore, hafter⟩
        exact ⟨m, ⟨k, first, hbefore⟩, hafter⟩
      · rintro ⟨m, ⟨k, first, hbefore⟩, hafter⟩
        exact ⟨k, first, m, hbefore, hafter⟩

end Visitor.Answered

namespace Visitor

variable {σ : Type} {v : Visitor σ} {s u : σ}

def Traverses (v : Visitor σ) (spots : List Spot) (s u : σ) : Prop :=
  exists calls, Traversal spots calls ∧ v.Answered s calls u

theorem traverses_nil : v.Traverses [] s u ↔ s = u := by
  constructor
  · rintro ⟨calls, htraversal, h⟩
    cases htraversal
    exact Answered.nil_iff.1 h
  · rintro rfl
    exact ⟨[], .done, .done s⟩

theorem traverses_leaf {c : Context} {l : Leaf} :
    v.Traverses [.leaf c l] s u ↔ (v.visit c l).run s = (.ok (), u) := by
  constructor
  · rintro ⟨calls, htraversal, h⟩
    cases htraversal with
    | leaf rest =>
        cases rest
        simpa [HookCall.Takes] using h
  · intro h
    exact ⟨[.visit c l], .leaf .done, .call h (.done u)⟩

theorem not_traverses_closed {t : GoType} {spots : List Spot} :
    ¬ v.Traverses (.closed t :: spots) s u := by
  rintro ⟨calls, htraversal, _⟩
  cases htraversal

theorem traverses_branch {c : Context} {b : Branch} {inside spots : List Spot} :
    v.Traverses (.branch c b inside :: spots) s u ↔
      exists m, ((v.enter c b).run s = (.ok .skip, m) ∨
          exists k n, (v.enter c b).run s = (.ok .descend, k) ∧ v.Traverses inside k n ∧
            (v.leave c b).run n = (.ok (), m)) ∧
        v.Traverses spots m u := by
  constructor
  · rintro ⟨calls, htraversal, h⟩
    cases htraversal with
    | skipped rest =>
        obtain ⟨m, henter, h⟩ := Answered.cons_iff.1 h
        exact ⟨m, .inl henter, _, rest, h⟩
    | entered within rest =>
        obtain ⟨k, henter, h⟩ := Answered.cons_iff.1 h
        obtain ⟨n, hbelow, h⟩ := Answered.append_iff.1 h
        obtain ⟨m, hleave, h⟩ := Answered.cons_iff.1 h
        exact ⟨m, .inr ⟨k, n, henter, ⟨_, within, hbelow⟩, hleave⟩, _, rest, h⟩
  · rintro ⟨m, hskip | ⟨k, n, henter, ⟨below, within, hbelow⟩, hleave⟩, calls, rest, h⟩
    · exact ⟨_, .skipped rest, .call hskip h⟩
    · exact ⟨_, .entered within rest,
        .call henter (Answered.append_iff.2 ⟨n, hbelow, .call hleave h⟩)⟩

theorem run_within_iff {c : Context} {b : Branch} {body : Visit σ Unit} {inside : List Spot}
    (hbody : forall {s u}, body.run s = (.ok (), u) ↔ v.Traverses inside s u) :
    (v.within c b body).run s = (.ok (), u) ↔ v.Traverses [.branch c b inside] s u := by
  rw [within, Visit.run_bind_eq_ok_iff, traverses_branch]
  constructor
  · rintro ⟨flow, k, henter, h⟩
    cases flow with
    | skip =>
        have hend : k = u := Visit.run_return_eq_ok_iff.1 h
        exact ⟨k, .inl henter, traverses_nil.2 hend⟩
    | descend =>
        obtain ⟨_, n, hwithin, hleave⟩ := Visit.run_bind_eq_ok_iff.1 h
        exact ⟨u, .inr ⟨k, n, henter, hbody.1 hwithin, hleave⟩, traverses_nil.2 rfl⟩
  · rintro ⟨m, h, hrest⟩
    obtain rfl : m = u := traverses_nil.1 hrest
    rcases h with henter | ⟨k, n, henter, hwithin, hleave⟩
    · exact ⟨.skip, m, henter, rfl⟩
    · exact ⟨.descend, k, henter, Visit.run_bind_eq_ok_iff.2 ⟨(), n, hbody.2 hwithin, hleave⟩⟩

theorem traverses_cons {spot : Spot} {spots : List Spot} :
    v.Traverses (spot :: spots) s u ↔
      exists m, v.Traverses [spot] s m ∧ v.Traverses spots m u := by
  cases spot with
  | leaf c l =>
      constructor
      · rintro ⟨calls, htraversal, h⟩
        cases htraversal with
        | leaf rest =>
            obtain ⟨m, hvisit, h⟩ := Answered.cons_iff.1 h
            exact ⟨m, traverses_leaf.2 hvisit, _, rest, h⟩
      · rintro ⟨m, hvisit, calls, rest, h⟩
        exact ⟨_, .leaf rest, .call (traverses_leaf.1 hvisit) h⟩
  | branch c b inside =>
      rw [traverses_branch]
      constructor
      · rintro ⟨m, h, hrest⟩
        exact ⟨m, traverses_branch.2 ⟨m, h, traverses_nil.2 rfl⟩, hrest⟩
      · rintro ⟨m, hbranch, hrest⟩
        obtain ⟨k, h, hnil⟩ := traverses_branch.1 hbranch
        obtain rfl : k = m := traverses_nil.1 hnil
        exact ⟨k, h, hrest⟩
  | closed t =>
      constructor
      · intro h
        exact absurd h not_traverses_closed
      · rintro ⟨m, h, _⟩
        exact absurd h not_traverses_closed

mutual

/-- A walk ends well exactly if the visitor answers a traversal of the places. -/
theorem run_walkFrom_iff {root : TypeName} {stack : List GoType} {package name : String}
    {s u : σ} (t : GoType) :
    (v.walkFrom root stack package name t).run s = (.ok (), u) ↔
      v.Traverses (Spot.listFrom root stack package name t) s u := by
  cases t with
  | basic kind => exact traverses_leaf.symm
  | named n => exact traverses_leaf.symm
  | struct fields => exact run_within_iff (run_walkFields_iff fields)
  | slice elem => exact run_within_iff (run_walkFrom_iff elem)
  | array len elem => exact run_within_iff (run_walkFrom_iff elem)
  | pointer elem => exact run_within_iff (run_walkFrom_iff elem)
  | map key value =>
      rw [walkFrom, Visit.run_bind_eq_ok_iff, Spot.listFrom, traverses_cons]
      simp only [run_within_iff (run_walkFrom_iff key), run_within_iff (run_walkFrom_iff value),
        exists_const]
  | interface methods embedded => exact iff_of_false nofun not_traverses_closed
  | func signature => exact iff_of_false nofun not_traverses_closed
  | chan dir elem => exact iff_of_false nofun not_traverses_closed
termination_by structural t

theorem run_walkFields_iff {root : TypeName} {stack : List GoType} {info : StructInfo}
    {s u : σ} (fields : List (Field GoType)) :
    (v.walkFields root stack info fields).run s = (.ok (), u) ↔
      v.Traverses (Spot.listFields root stack info fields) s u := by
  match fields with
  | [] => exact Visit.run_return_eq_ok_iff.trans traverses_nil.symm
  | ⟨name, type, tag, embedded, package⟩ :: rest =>
      rw [walkFields, Visit.run_bind_eq_ok_iff, Spot.listFields, traverses_cons]
      simp only [run_within_iff (run_walkFrom_iff type), run_walkFields_iff rest, exists_const]
termination_by structural fields

end

/-! # The calls of a walk -/

def noted {α : Type} (step : Visit σ α) (call : α -> HookCall) : Visit (σ × List HookCall) α :=
  fun (s, log) =>
    match step.run s with
    | (.ok a, u) => (.ok a, u, log ++ [call a])
    | (.error e, u) => (.error e, u, log)

def recorded (v : Visitor σ) : Visitor (σ × List HookCall) where
  enter c b := noted (v.enter c b) (.enter c b)
  leave c b := noted (v.leave c b) fun _ => .leave c b
  visit c l := noted (v.visit c l) fun _ => .visit c l

theorem run_noted_iff {α : Type} {step : Visit σ α} {call : α -> HookCall} {a : α}
    {log log' : List HookCall} :
    (noted step call).run (s, log) = (.ok a, u, log') ↔
      step.run s = (.ok a, u) ∧ log' = log ++ [call a] := by
  have hrun : (noted step call).run (s, log) = noted step call (s, log) := rfl
  rw [hrun, noted]
  rcases step.run s with ⟨_ | b, m⟩
  · exact iff_of_false nofun fun h => nomatch h.1
  · constructor
    · intro h
      cases h
      exact ⟨rfl, rfl⟩
    · rintro ⟨h, rfl⟩
      cases h
      rfl

theorem takes_recorded_iff {call : HookCall} {log log' : List HookCall} :
    call.Takes v.recorded (s, log) (u, log') ↔ call.Takes v s u ∧ log' = log ++ [call] := by
  cases call <;> exact run_noted_iff

theorem answered_recorded_iff {calls log log' : List HookCall} :
    v.recorded.Answered (s, log) calls (u, log') ↔
      v.Answered s calls u ∧ log' = log ++ calls := by
  induction calls generalizing s log with
  | nil => simp [eq_comm]
  | cons call calls ih =>
      simp only [Answered.cons_iff, Prod.exists, takes_recorded_iff, ih]
      constructor
      · rintro ⟨m, _, ⟨hcall, rfl⟩, hcalls, rfl⟩
        exact ⟨⟨m, hcall, hcalls⟩, by simp⟩
      · rintro ⟨⟨m, hcall, hcalls⟩, rfl⟩
        exact ⟨m, _, ⟨hcall, rfl⟩, hcalls, by simp⟩

/-- The calls that a walk makes and the visitor answers, in order. -/
def calls (v : Visitor σ) (root : TypeName) (t : GoType) (s : σ) : List HookCall :=
  ((v.recorded.walk root t).run (s, [])).2.2

theorem run_recorded_walk {root : TypeName} {t : GoType} {calls : List HookCall}
    (htraversal : Traversal (Spot.list root t) calls) (h : v.Answered s calls u) :
    (v.recorded.walk root t).run (s, []) = (.ok (), u, calls) :=
  (run_walkFrom_iff t).2 ⟨calls, htraversal, answered_recorded_iff.2 ⟨h, rfl⟩⟩

structure Brackets (v : Visitor σ) (root : TypeName) (t : GoType) (s u : σ)
    (calls : List HookCall) : Prop where
  /-- The log of the calls leaves the walk as it is. -/
  recorded : (v.recorded.walk root t).run (s, []) = (.ok (), u, calls)
  traversal : Traversal (Spot.list root t) calls
  answered : v.Answered s calls u
  bracketed : Bracketed [] calls
  /-- No other traversal is answered. -/
  only : forall {others : List HookCall} {w : σ}, Traversal (Spot.list root t) others ->
    v.Answered s others w -> others = calls

/-- A walk that ends well traverses the type as its visitor tells it to, and only so. -/
theorem brackets_of_walk (v : Visitor σ) (root : TypeName) (t : GoType) {s u : σ}
    (h : (v.walk root t).run s = (.ok (), u)) :
    v.Brackets root t s u (v.calls root t s) := by
  obtain ⟨calls, htraversal, hanswered⟩ := (run_walkFrom_iff t).1 h
  have hrun := run_recorded_walk htraversal hanswered
  have hcalls : v.calls root t s = calls := by
    rw [Visitor.calls, hrun]
  rw [hcalls]
  exact {
    recorded := hrun
    traversal := htraversal
    answered := hanswered
    bracketed := htraversal.bracketed
    only := by
      intro others w hothers hanswers
      have hother := run_recorded_walk hothers hanswers
      rw [hrun] at hother
      cases hother
      rfl }

/-- Counts the branches it is asked to enter and skips every third one. -/
def waltz : Visitor Nat where
  enter _ _ := do
    let n ← get
    set (n + 1)
    return if n % 3 = 2 then .skip else .descend
  leave _ _ := return ()
  visit _ _ := return ()

/-- `struct { M map[string]p.T; P *int }` -/
def mapAndPointer : GoType :=
  .struct [⟨"M", .map (.basic .string) (.named (.declared "p" "T")), none, false, "p"⟩,
    ⟨"P", .pointer (.basic .int), none, false, "p"⟩]

/-- The key of the map and the pointer are skipped, the element of the map and the second field
are not. -/
theorem brackets_of_walk_waltz :
    (waltz.walk (.declared "p" "S") mapAndPointer).run 0 = (.ok (), 6) ∧
      waltz.Brackets (.declared "p" "S") mapAndPointer 0 6
        (waltz.calls (.declared "p" "S") mapAndPointer 0) :=
  ⟨rfl, brackets_of_walk waltz (.declared "p" "S") mapAndPointer rfl⟩

end Visitor
end GoAtlas
