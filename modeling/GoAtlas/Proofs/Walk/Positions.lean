import GoAtlas.Proofs.Walk.SharedStack
import Mathlib.Logic.Basic

/-!
# What hooks see

A node of a type is reached by turns, each into a field, an element or a half of a map.  The turns
tell what a hook has to see there: the composite types on the way, and for a struct the name and
the package that the way gives it.  The calls of a walk are made at the places of its type, from
left to right, and every one of them is shown what the turns tell, up to the end of the walk or to
where it is given up.
-/

namespace GoAtlas

/-! # Ways to a node -/

inductive Turn where
  | field (fields : List (Field GoType)) (chosen : Field GoType)
  | slice (elem : GoType)
  | array (len : Nat) (elem : GoType)
  | pointer (elem : GoType)
  | mapKey (key value : GoType)
  | mapElem (key value : GoType)

namespace Turn

def outer : Turn -> GoType
  | field fields _ => .struct fields
  | slice elem => .slice elem
  | array len elem => .array len elem
  | pointer elem => .pointer elem
  | mapKey key value => .map key value
  | mapElem key value => .map key value

def inner : Turn -> GoType
  | field _ chosen => chosen.type
  | slice elem => elem
  | array _ elem => elem
  | pointer elem => elem
  | mapKey key _ => key
  | mapElem _ value => value

def field? : Turn -> Option (Field GoType)
  | field _ chosen => some chosen
  | _ => none

def IsSound : Turn -> Prop
  | field fields chosen => chosen ∈ fields
  | _ => True

def name : Turn -> String
  | field _ chosen => chosen.name
  | turn => turn.inner.text

end Turn

namespace Way

inductive Leads : GoType -> List Turn -> GoType -> Prop
  | here (t : GoType) : Leads t [] t
  | turn {turn : Turn} {way : List Turn} {t : GoType} (sound : turn.IsSound)
      (rest : Leads turn.inner way t) : Leads turn.outer (turn :: way) t

theorem Leads.concat {t : GoType} {way : List Turn} (turn : Turn) (h : Leads t way turn.outer)
    (sound : turn.IsSound) : Leads t (way ++ [turn]) turn.inner := by
  generalize hnode : turn.outer = node at h
  induction h with
  | here t =>
      subst hnode
      exact .turn sound (.here _)
  | turn hturn _ ih => exact .turn hturn (ih hnode)

def types (way : List Turn) : List GoType :=
  way.map Turn.outer

def package (root : TypeName) (way : List Turn) : String :=
  match (way.filterMap Turn.field?).getLast? with
  | some field => field.package
  | none => root.packagePath

def name (root : TypeName) (way : List Turn) : String :=
  match way.getLast? with
  | some turn => turn.name
  | none => root.name

def info (root : TypeName) (way : List Turn) (fields : List (Field GoType)) : StructInfo :=
  ⟨package root way, name root way, root, fields⟩

def outside (root : TypeName) (way : List Turn) : Context :=
  ⟨types way, root⟩

def inside (root : TypeName) (way : List Turn) (node : GoType) : Context :=
  ⟨types way ++ [node], root⟩

variable {root : TypeName} {way : List Turn}

theorem types_concat (turn : Turn) : types (way ++ [turn]) = types way ++ [turn.outer] :=
  List.map_append

theorem package_concat_field (fields : List (Field GoType)) (chosen : Field GoType) :
    package root (way ++ [.field fields chosen]) = chosen.package := by
  unfold package
  rw [List.filterMap_append]
  simp [Turn.field?]

theorem package_concat {turn : Turn} (h : turn.field? = none) :
    package root (way ++ [turn]) = package root way := by
  unfold package
  rw [List.filterMap_append, List.filterMap_cons_none h, List.filterMap_nil, List.append_nil]

theorem name_concat (turn : Turn) : name root (way ++ [turn]) = turn.name := by
  unfold name
  rw [List.getLast?_concat]

end Way

/-! # Places by ways -/

namespace Spot

mutual

def placesFrom (root : TypeName) (way : List Turn) : GoType -> List Spot
  | .basic kind => [leaf (Way.outside root way) (.basic kind)]
  | .named n => [leaf (Way.outside root way) (.named n)]
  | .struct fields =>
      [branch (Way.inside root way (.struct fields)) (.struct (Way.info root way fields))
        (placesFields root way fields fields)]
  | .slice elem =>
      [branch (Way.inside root way (.slice elem)) (.slice elem)
        (placesFrom root (way ++ [.slice elem]) elem)]
  | .array len elem =>
      [branch (Way.inside root way (.array len elem)) (.array len elem)
        (placesFrom root (way ++ [.array len elem]) elem)]
  | .pointer elem =>
      [branch (Way.inside root way (.pointer elem)) (.pointer elem)
        (placesFrom root (way ++ [.pointer elem]) elem)]
  | .map key value =>
      [branch (Way.inside root way (.map key value)) (.mapKey key)
          (placesFrom root (way ++ [.mapKey key value]) key),
        branch (Way.inside root way (.map key value)) (.mapElem value)
          (placesFrom root (way ++ [.mapElem key value]) value)]
  | .interface methods embedded => [closed (.interface methods embedded)]
  | .func signature => [closed (.func signature)]
  | .chan dir elem => [closed (.chan dir elem)]

def placesFields (root : TypeName) (way : List Turn) (fields : List (Field GoType)) :
    List (Field GoType) -> List Spot
  | [] => []
  | ⟨name, type, tag, embedded, package⟩ :: rest =>
      branch (Way.inside root way (.struct fields))
        (.field (Way.info root way fields) ⟨name, type, tag, embedded, package⟩)
        (placesFrom root (way ++ [.field fields ⟨name, type, tag, embedded, package⟩]) type) ::
          placesFields root way fields rest

end

def places (root : TypeName) (t : GoType) : List Spot :=
  placesFrom root [] t

/-- One level down, a type that stands in a container keeps the package and is called as it is
written. -/
theorem listFrom_concat {root : TypeName} {way : List Turn} (turn : Turn)
    (hfield : turn.field? = none) (hname : turn.name = turn.inner.text) (t : GoType) :
    listFrom root (Way.types way ++ [turn.outer]) (Way.package root way) turn.inner.text t =
      listFrom root (Way.types (way ++ [turn])) (Way.package root (way ++ [turn]))
        (Way.name root (way ++ [turn])) t := by
  rw [Way.types_concat, Way.package_concat hfield, Way.name_concat, hname]

mutual

theorem listFrom_eq_placesFrom {root : TypeName} {way : List Turn} (t : GoType) :
    listFrom root (Way.types way) (Way.package root way) (Way.name root way) t =
      placesFrom root way t := by
  cases t with
  | basic kind => rfl
  | named n => rfl
  | struct fields =>
      exact congrArg (fun inside => [branch _ _ inside]) (listFields_eq_placesFields fields)
  | slice elem =>
      exact congrArg (fun inside => [branch _ _ inside])
        ((listFrom_concat (.slice elem) rfl rfl elem).trans (listFrom_eq_placesFrom elem))
  | array len elem =>
      exact congrArg (fun inside => [branch _ _ inside])
        ((listFrom_concat (.array len elem) rfl rfl elem).trans
          (listFrom_eq_placesFrom elem))
  | pointer elem =>
      exact congrArg (fun inside => [branch _ _ inside])
        ((listFrom_concat (.pointer elem) rfl rfl elem).trans
          (listFrom_eq_placesFrom elem))
  | map key value =>
      exact congrArg₂ (fun keys values => [branch _ _ keys, branch _ _ values])
        ((listFrom_concat (.mapKey key value) rfl rfl key).trans
          (listFrom_eq_placesFrom key))
        ((listFrom_concat (.mapElem key value) rfl rfl value).trans
          (listFrom_eq_placesFrom value))
  | interface methods embedded => rfl
  | func signature => rfl
  | chan dir elem => rfl
termination_by structural t

theorem listFields_eq_placesFields {root : TypeName} {way : List Turn}
    {fields : List (Field GoType)} (some : List (Field GoType)) :
    listFields root (Way.types way ++ [.struct fields]) (Way.info root way fields) some =
      placesFields root way fields some := by
  match some with
  | [] => rfl
  | ⟨name, type, tag, embedded, package⟩ :: rest =>
      have hinside : listFrom root (Way.types way ++ [.struct fields]) package name type =
          placesFrom root (way ++ [.field fields ⟨name, type, tag, embedded, package⟩]) type := by
        rw [← listFrom_eq_placesFrom type, Way.types_concat, Way.package_concat_field,
          Way.name_concat]
        rfl
      exact congrArg₂ (fun inside spots => branch _ _ inside :: spots) hinside
        (listFields_eq_placesFields rest)
termination_by structural some

end

/-- The stack, the package and the name that a walk hands down are those of the ways. -/
theorem list_eq_places (root : TypeName) (t : GoType) : list root t = places root t := by
  show listFrom root (Way.types []) (Way.package root []) (Way.name root []) t = _
  exact listFrom_eq_placesFrom t

end Spot

/-! # Calls, answered or not -/

/-- A call of a hook, whatever comes of it. -/
inductive Ask where
  | enter (c : Context) (b : Branch)
  | leave (c : Context) (b : Branch)
  | visit (c : Context) (l : Leaf)

def HookCall.ask : HookCall -> Ask
  | enter c b _ => .enter c b
  | leave c b => .leave c b
  | visit c l => .visit c l

/-- The calls go through the places from left to right and stop at a call that fails or at a closed
place. -/
inductive Stops : List Spot -> List Ask -> Prop
  | closed {t : GoType} {spots : List Spot} : Stops (.closed t :: spots) []
  | visit {c : Context} {l : Leaf} {spots : List Spot} : Stops (.leaf c l :: spots) [.visit c l]
  | enter {c : Context} {b : Branch} {inside spots : List Spot} :
      Stops (.branch c b inside :: spots) [.enter c b]
  | inside {c : Context} {b : Branch} {inside spots : List Spot} {asks : List Ask}
      (within : Stops inside asks) : Stops (.branch c b inside :: spots) (.enter c b :: asks)
  | leave {c : Context} {b : Branch} {inside spots : List Spot} {calls : List HookCall}
      (within : Traversal inside calls) :
      Stops (.branch c b inside :: spots) (.enter c b :: (calls.map HookCall.ask ++ [.leave c b]))
  | later {spot : Spot} {spots : List Spot} {calls : List HookCall} {asks : List Ask}
      (first : Traversal [spot] calls) (rest : Stops spots asks) :
      Stops (spot :: spots) (calls.map HookCall.ask ++ asks)

def Through (spots : List Spot) : Except Error Unit -> List Ask -> Prop
  | .ok _, asks => exists calls, Traversal spots calls ∧ asks = calls.map HookCall.ask
  | .error _, asks => Stops spots asks

theorem Traversal.append {spots spots' : List Spot} {calls calls' : List HookCall}
    (h : Traversal spots calls) (h' : Traversal spots' calls') :
    Traversal (spots ++ spots') (calls ++ calls') := by
  induction h with
  | done => exact h'
  | leaf _ ih => exact .leaf ih
  | skipped _ ih => exact .skipped ih
  | @entered c b inside spots below calls within _ _ ih =>
      rw [List.cons_append, List.cons_append, List.append_assoc]
      exact .entered within ih

namespace Stops

theorem append_right {spots : List Spot} {asks : List Ask} (h : Stops spots asks)
    (more : List Spot) : Stops (spots ++ more) asks := by
  induction h with
  | closed => exact .closed
  | visit => exact .visit
  | enter => exact .enter
  | inside within _ => exact .inside within
  | leave within => exact .leave within
  | later first _ ih => exact .later first ih

theorem append_left {spots spots' : List Spot} {calls : List HookCall} {asks : List Ask}
    (h : Traversal spots calls) (h' : Stops spots' asks) :
    Stops (spots ++ spots') (calls.map HookCall.ask ++ asks) := by
  induction h with
  | done => exact h'
  | @leaf c l _ _ _ ih =>
      have hfirst : Traversal [.leaf c l] [.visit c l] := .leaf .done
      have hall := Stops.later hfirst ih
      exact hall
  | @skipped c b inside _ _ _ ih =>
      have hfirst : Traversal [.branch c b inside] [.enter c b .skip] := .skipped .done
      have hall := Stops.later hfirst ih
      exact hall
  | @entered c b inside spots below calls within _ _ ih =>
      have hfirst :
          Traversal [.branch c b inside] (.enter c b .descend :: (below ++ [.leave c b])) :=
        .entered within .done
      have hall := Stops.later hfirst ih
      simpa using hall

end Stops

/-! # A log of the calls -/

namespace Visit

variable {σ α : Type}

def asked (step : Visit σ α) (ask : Ask) : Visit (σ × List Ask) α :=
  fun (s, log) =>
    match step.run s with
    | (result, u) => (result, u, log ++ [ask])

def Logs (spots : List Spot) (x : Visit σ Unit) (y : Visit (σ × List Ask) Unit) : Prop :=
  forall s log, exists asks, y.run (s, log) = ((x.run s).1, (x.run s).2, log ++ asks) ∧
    Through spots (x.run s).1 asks

namespace Logs

theorem done : Logs [] (return () : Visit σ Unit) (return ()) := by
  intro s log
  refine ⟨[], ?_, [], .done, rfl⟩
  rw [List.append_nil]
  rfl

theorem unhandled (t : GoType) :
    Logs [.closed t] (Visitor.unhandled t : Visit σ Unit) (Visitor.unhandled t) := by
  intro s log
  refine ⟨[], ?_, .closed⟩
  rw [List.append_nil]
  rfl

theorem visit {step : Visit σ Unit} {c : Context} {l : Leaf} :
    Logs [.leaf c l] step (asked step (.visit c l)) := by
  intro s log
  refine ⟨[.visit c l], rfl, ?_⟩
  cases (step.run s).1 with
  | error e => exact .visit
  | ok _ => exact ⟨_, .leaf .done, rfl⟩

theorem append {spots spots' : List Spot} {x x' : Visit σ Unit}
    {y y' : Visit (σ × List Ask) Unit} (h : Logs spots x y) (h' : Logs spots' x' y') :
    Logs (spots ++ spots') (x >>= fun _ => x') (y >>= fun _ => y') := by
  intro s log
  obtain ⟨asks, hy, hasks⟩ := h s log
  rcases hrun : x.run s with ⟨e | a, m⟩
  · rw [hrun] at hy hasks
    rw [run_bind_of_error hrun, run_bind_of_error hy]
    exact ⟨asks, rfl, hasks.append_right _⟩
  · rw [hrun] at hy hasks
    obtain ⟨calls, hcalls, rfl⟩ := hasks
    obtain ⟨asks, hy', hasks⟩ := h' m (log ++ calls.map HookCall.ask)
    rw [run_bind_of_ok hrun, run_bind_of_ok hy]
    refine ⟨calls.map HookCall.ask ++ asks, ?_, ?_⟩
    · rw [hy', List.append_assoc]
    · cases hend : (x'.run m).1 with
      | error e =>
          rw [hend] at hasks
          exact .append_left hcalls hasks
      | ok _ =>
          rw [hend] at hasks
          obtain ⟨calls', hcalls', rfl⟩ := hasks
          exact ⟨calls ++ calls', hcalls.append hcalls', List.map_append.symm⟩

end Logs
end Visit

namespace Visitor

variable {σ : Type}

def asking (v : Visitor σ) : Visitor (σ × List Ask) where
  enter c b := Visit.asked (v.enter c b) (.enter c b)
  leave c b := Visit.asked (v.leave c b) (.leave c b)
  visit c l := Visit.asked (v.visit c l) (.visit c l)

variable {v : Visitor σ}

theorem logs_within {c : Context} {b : Branch} {inside : List Spot} {x : Visit σ Unit}
    {y : Visit (σ × List Ask) Unit} (h : Visit.Logs inside x y) :
    Visit.Logs [.branch c b inside] (v.within c b x) (v.asking.within c b y) := by
  intro s log
  have henter : (v.asking.enter c b).run (s, log) =
      (((v.enter c b).run s).1, ((v.enter c b).run s).2, log ++ [.enter c b]) := rfl
  unfold within
  rcases hrun : (v.enter c b).run s with ⟨e | _ | _, m⟩
  · rw [hrun] at henter
    rw [Visit.run_bind_of_error hrun, Visit.run_bind_of_error henter]
    exact ⟨_, rfl, .enter⟩
  · rw [hrun] at henter
    rw [Visit.run_bind_of_ok hrun, Visit.run_bind_of_ok henter]
    dsimp only
    obtain ⟨asks, hy, hasks⟩ := h m (log ++ [.enter c b])
    rcases hbody : x.run m with ⟨e | a, n⟩
    · rw [hbody] at hy hasks
      rw [Visit.run_bind_of_error hbody, Visit.run_bind_of_error hy]
      exact ⟨.enter c b :: asks, by simp, .inside hasks⟩
    · rw [hbody] at hy hasks
      obtain ⟨calls, hcalls, rfl⟩ := hasks
      rw [Visit.run_bind_of_ok hbody, Visit.run_bind_of_ok hy]
      have hleave : (v.asking.leave c b).run
          (n, log ++ [.enter c b] ++ calls.map HookCall.ask) =
          (((v.leave c b).run n).1, ((v.leave c b).run n).2,
            log ++ [.enter c b] ++ calls.map HookCall.ask ++ [.leave c b]) := rfl
      refine ⟨.enter c b :: (calls.map HookCall.ask ++ [.leave c b]), ?_, ?_⟩
      · rw [hleave]
        simp
      · cases ((v.leave c b).run n).1 with
        | error e => exact .leave hcalls
        | ok _ =>
            refine ⟨.enter c b .descend :: (calls ++ [.leave c b]), .entered hcalls .done, ?_⟩
            simp [HookCall.ask]
  · rw [hrun] at henter
    rw [Visit.run_bind_of_ok hrun, Visit.run_bind_of_ok henter]
    exact ⟨[.enter c b], rfl, _, .skipped .done, rfl⟩

mutual

theorem logs_walkFrom {root : TypeName} {stack : List GoType} {package name : String}
    (t : GoType) :
    Visit.Logs (Spot.listFrom root stack package name t) (v.walkFrom root stack package name t)
      (v.asking.walkFrom root stack package name t) := by
  cases t with
  | basic kind => exact .visit
  | named n => exact .visit
  | struct fields => exact logs_within (logs_walkFields fields)
  | slice elem => exact logs_within (logs_walkFrom elem)
  | array len elem => exact logs_within (logs_walkFrom elem)
  | pointer elem => exact logs_within (logs_walkFrom elem)
  | map key value =>
      exact .append (logs_within (logs_walkFrom key)) (logs_within (logs_walkFrom value))
  | interface methods embedded => exact .unhandled _
  | func signature => exact .unhandled _
  | chan dir elem => exact .unhandled _
termination_by structural t

theorem logs_walkFields {root : TypeName} {stack : List GoType} {info : StructInfo}
    (fields : List (Field GoType)) :
    Visit.Logs (Spot.listFields root stack info fields) (v.walkFields root stack info fields)
      (v.asking.walkFields root stack info fields) := by
  match fields with
  | [] => exact .done
  | ⟨name, type, tag, embedded, package⟩ :: rest =>
      exact .append (logs_within (logs_walkFrom type)) (logs_walkFields rest)
termination_by structural fields

end

end Visitor

/-! # What is at the end of a way -/

namespace Leaf

def type : Leaf -> GoType
  | basic kind => .basic kind
  | named n => .named n

end Leaf

/-- The branches of a node at the end of a way, with what its hooks are shown of it. -/
inductive Opens (root : TypeName) (way : List Turn) : GoType -> Branch -> Prop
  | struct (fields : List (Field GoType)) :
      Opens root way (.struct fields) (.struct (Way.info root way fields))
  | field {fields : List (Field GoType)} {chosen : Field GoType} (hfield : chosen ∈ fields) :
      Opens root way (.struct fields) (.field (Way.info root way fields) chosen)
  | slice (elem : GoType) : Opens root way (.slice elem) (.slice elem)
  | array (len : Nat) (elem : GoType) : Opens root way (.array len elem) (.array len elem)
  | pointer (elem : GoType) : Opens root way (.pointer elem) (.pointer elem)
  | mapKey (key value : GoType) : Opens root way (.map key value) (.mapKey key)
  | mapElem (key value : GoType) : Opens root way (.map key value) (.mapElem value)

/-- The call is made at the end of a way and shown what the way tells. -/
def Ask.IsPlaced (root : TypeName) (t : GoType) : Ask -> Prop
  | enter c b | leave c b => exists way node,
      Way.Leads t way node ∧ Opens root way node b ∧ c = Way.inside root way node
  | visit c l => exists way, Way.Leads t way l.type ∧ c = Way.outside root way

/-- All calls at the place, and inside of it, are placed. -/
inductive Spot.Stands (root : TypeName) (t : GoType) : Spot -> Prop
  | leaf {way : List Turn} {l : Leaf} (leads : Way.Leads t way l.type) :
      Stands root t (.leaf (Way.outside root way) l)
  | branch {way : List Turn} {node : GoType} {b : Branch} {inside : List Spot}
      (leads : Way.Leads t way node) (opens : Opens root way node b)
      (within : forall spot, spot ∈ inside -> Stands root t spot) :
      Stands root t (.branch (Way.inside root way node) b inside)
  | closed (u : GoType) : Stands root t (.closed u)

namespace Spot

variable {root : TypeName} {t : GoType} {way : List Turn}

theorem stands_branch {node : GoType} {b : Branch} {inside : List Spot}
    (leads : Way.Leads t way node) (opens : Opens root way node b)
    (within : forall spot, spot ∈ inside -> Stands root t spot) :
    forall spot, spot ∈ [branch (Way.inside root way node) b inside] -> Stands root t spot :=
  List.forall_mem_singleton.mpr (.branch leads opens within)

mutual

theorem stands_placesFrom (u : GoType) {way : List Turn} (leads : Way.Leads t way u) :
    forall spot, spot ∈ placesFrom root way u -> Stands root t spot := by
  cases u with
  | basic kind => exact List.forall_mem_singleton.mpr (.leaf leads)
  | named n => exact List.forall_mem_singleton.mpr (.leaf leads)
  | struct fields =>
      exact stands_branch leads (.struct fields) (stands_placesFields fields leads fun _ => id)
  | slice elem =>
      exact stands_branch leads (.slice elem)
        (stands_placesFrom elem (leads.concat (.slice elem) trivial))
  | array len elem =>
      exact stands_branch leads (.array len elem)
        (stands_placesFrom elem (leads.concat (.array len elem) trivial))
  | pointer elem =>
      exact stands_branch leads (.pointer elem)
        (stands_placesFrom elem (leads.concat (.pointer elem) trivial))
  | map key value =>
      have hkey := stands_branch leads (.mapKey key value)
        (stands_placesFrom key (leads.concat (.mapKey key value) trivial))
      have hvalue := stands_branch leads (.mapElem key value)
        (stands_placesFrom value (leads.concat (.mapElem key value) trivial))
      exact List.forall_mem_append.mpr ⟨hkey, hvalue⟩
  | interface methods embedded => exact List.forall_mem_singleton.mpr (.closed _)
  | func signature => exact List.forall_mem_singleton.mpr (.closed _)
  | chan dir elem => exact List.forall_mem_singleton.mpr (.closed _)
termination_by structural u

theorem stands_placesFields {fields : List (Field GoType)} (some : List (Field GoType))
    {way : List Turn} (leads : Way.Leads t way (.struct fields))
    (hsome : forall field, field ∈ some -> field ∈ fields) :
    forall spot, spot ∈ placesFields root way fields some -> Stands root t spot := by
  match some with
  | [] => exact List.forall_mem_nil _
  | ⟨name, type, tag, embedded, package⟩ :: rest =>
      have hfield := hsome _ List.mem_cons_self
      have hinside := stands_placesFrom type
        (leads.concat (.field fields ⟨name, type, tag, embedded, package⟩) hfield)
      exact List.forall_mem_cons.mpr ⟨.branch leads (.field hfield) hinside,
        stands_placesFields rest leads fun field hmem => hsome field (List.mem_cons_of_mem _ hmem)⟩
termination_by structural some

end

end Spot

theorem Traversal.isPlaced {root : TypeName} {t : GoType} {spots : List Spot}
    {calls : List HookCall} (h : Traversal spots calls)
    (hspots : forall spot, spot ∈ spots -> spot.Stands root t) :
    forall ask, ask ∈ calls.map HookCall.ask -> ask.IsPlaced root t := by
  induction h with
  | done => exact List.forall_mem_nil _
  | leaf _ ih =>
      obtain ⟨hspot, hrest⟩ := List.forall_mem_cons.mp hspots
      cases hspot with
      | leaf leads => exact List.forall_mem_cons.mpr ⟨⟨_, leads, rfl⟩, ih hrest⟩
  | skipped _ ih =>
      obtain ⟨hspot, hrest⟩ := List.forall_mem_cons.mp hspots
      cases hspot with
      | branch leads opens _ =>
          exact List.forall_mem_cons.mpr ⟨⟨_, _, leads, opens, rfl⟩, ih hrest⟩
  | entered _ _ ihwithin ih =>
      obtain ⟨hspot, hrest⟩ := List.forall_mem_cons.mp hspots
      cases hspot with
      | branch leads opens within =>
          rw [List.map_cons, List.map_append, List.map_cons]
          exact List.forall_mem_cons.mpr ⟨⟨_, _, leads, opens, rfl⟩, List.forall_mem_append.mpr
            ⟨ihwithin within, List.forall_mem_cons.mpr ⟨⟨_, _, leads, opens, rfl⟩, ih hrest⟩⟩⟩

theorem Stops.isPlaced {root : TypeName} {t : GoType} {spots : List Spot} {asks : List Ask}
    (h : Stops spots asks) (hspots : forall spot, spot ∈ spots -> spot.Stands root t) :
    forall ask, ask ∈ asks -> ask.IsPlaced root t := by
  induction h with
  | closed => exact List.forall_mem_nil _
  | visit =>
      cases hspots _ List.mem_cons_self with
      | leaf leads => exact List.forall_mem_singleton.mpr ⟨_, leads, rfl⟩
  | enter =>
      cases hspots _ List.mem_cons_self with
      | branch leads opens _ => exact List.forall_mem_singleton.mpr ⟨_, _, leads, opens, rfl⟩
  | inside _ ih =>
      cases hspots _ List.mem_cons_self with
      | branch leads opens within =>
          exact List.forall_mem_cons.mpr ⟨⟨_, _, leads, opens, rfl⟩, ih within⟩
  | leave hcalls =>
      cases hspots _ List.mem_cons_self with
      | branch leads opens within =>
          exact List.forall_mem_cons.mpr ⟨⟨_, _, leads, opens, rfl⟩, List.forall_mem_append.mpr
            ⟨hcalls.isPlaced within, List.forall_mem_singleton.mpr ⟨_, _, leads, opens, rfl⟩⟩⟩
  | later first _ ih =>
      obtain ⟨hspot, hrest⟩ := List.forall_mem_cons.mp hspots
      exact List.forall_mem_append.mpr
        ⟨first.isPlaced (List.forall_mem_singleton.mpr hspot), ih hrest⟩

theorem Through.isPlaced {root : TypeName} {t : GoType} {spots : List Spot}
    {result : Except Error Unit} {asks : List Ask} (h : Through spots result asks)
    (hspots : forall spot, spot ∈ spots -> spot.Stands root t) :
    forall ask, ask ∈ asks -> ask.IsPlaced root t := by
  cases result with
  | error e => exact Stops.isPlaced h hspots
  | ok _ =>
      obtain ⟨calls, hcalls, rfl⟩ := h
      exact hcalls.isPlaced hspots

namespace Visitor

variable {σ : Type}

def asks (v : Visitor σ) (root : TypeName) (t : GoType) (s : σ) : List Ask :=
  ((v.asking.walk root t).run (s, [])).2.2

structure SeesPositions (v : Visitor σ) (root : TypeName) (t : GoType) (s : σ) : Prop where
  /-- The log of the calls leaves the walk as it is. -/
  undisturbed : (v.asking.walk root t).run (s, []) =
    (((v.walk root t).run s).1, ((v.walk root t).run s).2, v.asks root t s)
  /-- It is the log also where all hooks look at one stack. -/
  shared : (v.asking.walkShared root t).run ((s, []), []) =
    (((v.walk root t).run s).1, (((v.walk root t).run s).2, v.asks root t s), [])
  /-- The calls are made at the places of the type, one after another. -/
  through : Through (Spot.places root t) ((v.walk root t).run s).1 (v.asks root t s)
  /-- Each is shown what a way to its node tells. -/
  placed : forall ask, ask ∈ v.asks root t s -> ask.IsPlaced root t

/-- Hooks see where they are, whatever they answer and wherever the walk is given up. -/
theorem seesPositions (v : Visitor σ) (root : TypeName) (t : GoType) (s : σ) :
    v.SeesPositions root t s := by
  obtain ⟨asks, hrun, hthrough⟩ := logs_walkFrom t s []
  have hwalk : (v.asking.walk root t).run (s, []) =
      (((v.walk root t).run s).1, ((v.walk root t).run s).2, asks) := hrun
  have hasks : v.asks root t s = asks := by
    rw [Visitor.asks, hwalk]
  have hplaces : Through (Spot.places root t) ((v.walk root t).run s).1 asks := by
    rw [← Spot.list_eq_places]
    exact hthrough
  rw [← hasks] at hwalk hplaces
  refine ⟨hwalk, ?_, hplaces, ?_⟩
  · rw [run_walkShared, hwalk]
  · exact hplaces.isPlaced (Spot.stands_placesFrom t (.here t))

end Visitor
end GoAtlas
