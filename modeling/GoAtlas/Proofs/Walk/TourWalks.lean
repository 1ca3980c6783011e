import GoAtlas.Proofs.Walk.Tours

/-!
# Walks along tours

A visitor that never fails answers exactly one of the tours of a type.  Its walk goes along this
tour, and where it is given up is where the tour comes to the first type that cannot be walked.
-/

namespace GoAtlas

/-! # The tour of a visitor -/

theorem HookCall.Takes.unique {σ : Type} {v : Visitor σ} {call : HookCall} {s u w : σ}
    (h : call.Takes v s u) (h' : call.Takes v s w) : u = w := by
  cases call with
  | enter c b answer => exact congrArg Prod.snd (h.symm.trans h')
  | leave c b => exact congrArg Prod.snd (h.symm.trans h')
  | visit c l => exact congrArg Prod.snd (h.symm.trans h')

namespace Visitor

variable {σ : Type} {v : Visitor σ}

theorem Answered.unique {s u w : σ} {calls : List HookCall} (h : v.Answered s calls u)
    (h' : v.Answered s calls w) : u = w := by
  induction h with
  | done s => exact Answered.nil_iff.1 h'
  | call first _ ih =>
      obtain ⟨m, hfirst, hrest⟩ := Answered.cons_iff.1 h'
      cases first.unique hfirst
      exact ih hrest

def Chooses (v : Visitor σ) (Tours : List Station -> Prop) : Prop :=
  forall s u w stations others, Tours stations -> Tours others ->
    v.Answered s (Station.calls stations) u -> v.Answered s (Station.calls others) w ->
      stations = others

namespace Chooses

theorem single (stations : List Station) : v.Chooses (Eq stations) := by
  intro s u w _ _ hstations hothers _ _
  exact hstations.symm.trans hothers

theorem andThen {First Second : List Station -> Prop} (hfirst : v.Chooses First)
    (hsecond : v.Chooses Second) : v.Chooses (Tour.Then First Second) := by
  rintro s u w _ _ ⟨before, after, hbefore, hafter, rfl⟩ ⟨before', after', hbefore', hafter', rfl⟩
    h h'
  rw [Station.calls_append] at h h'
  obtain ⟨m, hm, hrest⟩ := Answered.append_iff.1 h
  obtain ⟨m', hm', hrest'⟩ := Answered.append_iff.1 h'
  cases hfirst _ _ _ _ _ hbefore hbefore' hm hm'
  cases hm.unique hm'
  cases hsecond _ _ _ _ _ hafter hafter' hrest hrest'
  rfl

theorem around {c : Context} {b : Branch} {Inside : List Station -> Prop}
    (hinside : v.Chooses Inside) : v.Chooses (Tour.Around c b Inside) := by
  intro s u w stations others hstations hothers h h'
  cases hstations with
  | skipped =>
      cases hothers with
      | skipped => rfl
      | entered _ =>
          obtain ⟨_, hskip, _⟩ := Answered.cons_iff.1 h
          obtain ⟨_, henter, _⟩ := Answered.cons_iff.1 h'
          cases hskip.symm.trans henter
  | @entered below within =>
      cases hothers with
      | skipped =>
          obtain ⟨_, henter, _⟩ := Answered.cons_iff.1 h
          obtain ⟨_, hskip, _⟩ := Answered.cons_iff.1 h'
          cases hskip.symm.trans henter
      | @entered below' within' =>
          rw [Station.calls_call, Station.calls_append] at h h'
          obtain ⟨m, henter, h⟩ := Answered.cons_iff.1 h
          obtain ⟨m', henter', h'⟩ := Answered.cons_iff.1 h'
          cases henter.unique henter'
          obtain ⟨_, hbelow, _⟩ := Answered.append_iff.1 h
          obtain ⟨_, hbelow', _⟩ := Answered.append_iff.1 h'
          rw [hinside _ _ _ _ _ within within' hbelow hbelow']

end Chooses

mutual

theorem chooses_from {root : TypeName} {way : List Turn} (t : GoType) :
    v.Chooses (Tour.From root way t) := by
  cases t with
  | basic kind => exact .single _
  | named n => exact .single _
  | struct fields => exact .around (chooses_fields fields)
  | slice elem => exact .around (chooses_from elem)
  | array len elem => exact .around (chooses_from elem)
  | pointer elem => exact .around (chooses_from elem)
  | map key value => exact .andThen (.around (chooses_from key)) (.around (chooses_from value))
  | interface methods embedded => exact .single _
  | func signature => exact .single _
  | chan dir elem => exact .single _
termination_by structural t

theorem chooses_fields {root : TypeName} {way : List Turn} {fields : List (Field GoType)}
    (some : List (Field GoType)) : v.Chooses (Tour.Fields root way fields some) := by
  match some with
  | [] => exact .single _
  | ⟨name, type, tag, embedded, package⟩ :: rest =>
      exact .andThen (.around (chooses_from type)) (chooses_fields rest)
termination_by structural some

end

/-! # Walks along a tour -/

/-- Whatever it is shown and in whatever state, the visitor answers. -/
structure NeverFails (v : Visitor σ) : Prop where
  enter (c : Context) (b : Branch) (s : σ) : exists flow u, (v.enter c b).run s = (.ok flow, u)
  leave (c : Context) (b : Branch) (s : σ) : exists u, (v.leave c b).run s = (.ok (), u)
  visit (c : Context) (l : Leaf) (s : σ) : exists u, (v.visit c l).run s = (.ok (), u)

/-- How a walk along a tour comes out: its result, the visitor's state and the calls. -/
inductive Ending (v : Visitor σ) (s : σ) :
    List Station -> Except Error Unit -> σ -> List Ask -> Prop
  | whole {calls : List HookCall} {u : σ} (answered : v.Answered s calls u) :
      Ending v s (calls.map .call) (.ok ()) u (calls.map HookCall.ask)
  | short {before : List HookCall} {way : List Turn} {node : GoType} {after : List Station} {u : σ}
      (answered : v.Answered s before u) :
      Ending v s (before.map .call ++ .closed way node :: after)
        (.error (.unhandledKind (node.shape ++ " (" ++ node.text ++ ")"))) u
        (before.map HookCall.ask)

def Passes (v : Visitor σ) (Tours : List Station -> Prop)
    (step : Visit (σ × List Ask) Unit) : Prop :=
  forall s log, exists stations w result u asks, Tours stations ∧
    v.Answered s (Station.calls stations) w ∧ v.Ending s stations result u asks ∧
      step.run (s, log) = (result, u, log ++ asks)

theorem run_asked_of_ok {α : Type} {step : Visit σ α} {ask : Ask} {s u : σ} {a : α}
    (log : List Ask) (h : step.run s = (.ok a, u)) :
    (Visit.asked step ask).run (s, log) = (.ok a, u, log ++ [ask]) := by
  have hrun : (Visit.asked step ask).run (s, log) =
      ((step.run s).1, (step.run s).2, log ++ [ask]) := rfl
  rw [hrun, h]

namespace Passes

theorem done : v.Passes (Eq []) (return ()) := by
  intro s log
  refine ⟨[], s, .ok (), s, [], rfl, .done s, .whole (.done s), ?_⟩
  rw [List.append_nil]
  rfl

theorem visit (h : v.NeverFails) (c : Context) (l : Leaf) :
    v.Passes (Eq [.call (.visit c l)]) (v.asking.visit c l) := by
  intro s log
  obtain ⟨u, hvisit⟩ := h.visit c l s
  have hanswered : v.Answered s [.visit c l] u := .call hvisit (.done u)
  exact ⟨_, u, .ok (), u, [.visit c l], rfl, hanswered, .whole hanswered,
    run_asked_of_ok log hvisit⟩

theorem unhandled (way : List Turn) (node : GoType) :
    v.Passes (Eq [.closed way node]) (Visitor.unhandled node) := by
  intro s log
  have hshort : v.Ending s [.closed way node]
      (.error (.unhandledKind (node.shape ++ " (" ++ node.text ++ ")"))) s [] := .short (.done s)
  refine ⟨_, s, _, s, [], rfl, .done s, hshort, ?_⟩
  rw [List.append_nil]
  rfl

theorem andThen {First Second : List Station -> Prop} {step step' : Visit (σ × List Ask) Unit}
    (hfirst : v.Passes First step) (hsecond : v.Passes Second step') :
    v.Passes (Tour.Then First Second) (step >>= fun _ => step') := by
  intro s log
  obtain ⟨stations, w, result, u, asks, hstations, hanswered, hending, hrun⟩ := hfirst s log
  cases hending with
  | @whole calls _ hcalls =>
      obtain ⟨stations', w', result', u', asks', hstations', hanswered', hending', hrun'⟩ :=
        hsecond u (log ++ calls.map HookCall.ask)
      have htour : Tour.Then First Second (calls.map .call ++ stations') :=
        ⟨_, _, hstations, hstations', rfl⟩
      have hall : v.Answered s (Station.calls (calls.map .call ++ stations')) w' := by
        rw [Station.calls_append, Station.calls_map_call]
        exact Answered.append_iff.2 ⟨u, hcalls, hanswered'⟩
      rw [Visit.run_bind_of_ok hrun, hrun', List.append_assoc]
      cases hending' with
      | @whole calls' _ hcalls' =>
          have hboth := Answered.append_iff.2 ⟨u, hcalls, hcalls'⟩
          exact ⟨_, w', _, _, _, htour, hall, by simpa using Ending.whole hboth, rfl⟩
      | @short before way node after _ hbefore =>
          have hboth := Answered.append_iff.2 ⟨u, hcalls, hbefore⟩
          have hshort : v.Ending s ((calls ++ before).map .call ++ .closed way node :: after) _ u'
              ((calls ++ before).map HookCall.ask) := .short hboth
          exact ⟨_, w', _, _, _, htour, hall, by simpa using hshort, rfl⟩
  | @short before way node after _ hbefore =>
      -- The walk is given up, but the tour goes on from where the first one ends.
      obtain ⟨stations', w', _, _, _, hstations', hanswered', _, _⟩ := hsecond w []
      have htour : Tour.Then First Second
          (before.map .call ++ .closed way node :: (after ++ stations')) :=
        ⟨_, _, hstations, hstations', by simp⟩
      have hall : v.Answered s (Station.calls
          (before.map .call ++ .closed way node :: (after ++ stations'))) w' := by
        have hboth := Answered.append_iff.2 ⟨w, hanswered, hanswered'⟩
        simpa using hboth
      rw [Visit.run_bind_of_error hrun]
      exact ⟨_, w', _, _, _, htour, hall, .short hbefore, rfl⟩

theorem within (h : v.NeverFails) {c : Context} {b : Branch} {Inside : List Station -> Prop}
    {body : Visit (σ × List Ask) Unit} (hbody : v.Passes Inside body) :
    v.Passes (Tour.Around c b Inside) (v.asking.within c b body) := by
  intro s log
  obtain ⟨flow, m, henter⟩ := h.enter c b s
  have hasked : (v.asking.enter c b).run (s, log) = (.ok flow, m, log ++ [.enter c b]) :=
    run_asked_of_ok log henter
  unfold Visitor.within
  rw [Visit.run_bind_of_ok hasked]
  cases flow with
  | skip =>
      have hanswered : v.Answered s [.enter c b .skip] m := .call henter (.done m)
      exact ⟨_, m, .ok (), m, [.enter c b], .skipped, hanswered, .whole hanswered, rfl⟩
  | descend =>
      dsimp only
      obtain ⟨stations, w, result, n, asks, hstations, hanswered, hending, hrun⟩ :=
        hbody m (log ++ [.enter c b])
      obtain ⟨u, hleave⟩ := h.leave c b w
      have hall : v.Answered s
          (.enter c b .descend :: (Station.calls stations ++ [.leave c b])) u :=
        .call henter (Answered.append_iff.2 ⟨w, hanswered, .call hleave (.done u)⟩)
      cases hending with
      | @whole calls _ hcalls =>
          rw [Station.calls_map_call] at hanswered hall
          cases hcalls.unique hanswered
          rw [Visit.run_bind_of_ok hrun]
          have hasked :
              (v.asking.leave c b).run (w, log ++ [.enter c b] ++ calls.map HookCall.ask) =
                (.ok (), u, log ++ [.enter c b] ++ calls.map HookCall.ask ++ [.leave c b]) :=
            run_asked_of_ok _ hleave
          refine ⟨_, u, _, u, _, .entered hstations, by simpa using hall, ?_,
            hasked.trans (by rw [List.append_assoc, List.append_assoc])⟩
          simpa [HookCall.ask] using Ending.whole hall
      | @short before way node after _ hbefore =>
          have hentered : v.Answered s (.enter c b .descend :: before) n := .call henter hbefore
          have hshort : v.Ending s ((HookCall.enter c b .descend :: before).map .call ++
              .closed way node :: (after ++ [.call (.leave c b)])) _ n
              ((HookCall.enter c b .descend :: before).map HookCall.ask) := .short hentered
          rw [Visit.run_bind_of_error hrun]
          refine ⟨_, u, _, n, _, .entered hstations, by simpa using hall, ?_,
            by rw [List.append_assoc]⟩
          simpa [HookCall.ask] using hshort

end Passes

/-- One level down, a type that stands in a container is walked at the end of a longer way. -/
theorem walkFrom_concat {root : TypeName} {way : List Turn} (turn : Turn)
    (hfield : turn.field? = none) (hname : turn.name = turn.inner.text) (t : GoType) :
    v.walkFrom root (Way.types way ++ [turn.outer]) (Way.package root way) turn.inner.text t =
      v.walkFrom root (Way.types (way ++ [turn])) (Way.package root (way ++ [turn]))
        (Way.name root (way ++ [turn])) t := by
  rw [Way.types_concat, Way.package_concat hfield, Way.name_concat, hname]

mutual

theorem passes_walkFrom (h : v.NeverFails) (root : TypeName) (way : List Turn) (t : GoType) :
    v.Passes (Tour.From root way t)
      (v.asking.walkFrom root (Way.types way) (Way.package root way) (Way.name root way) t) := by
  cases t with
  | basic kind => exact .visit h _ _
  | named n => exact .visit h _ _
  | struct fields => exact .within h (passes_walkFields h root way fields)
  | slice elem =>
      have helem := passes_walkFrom h root (way ++ [.slice elem]) elem
      rw [← walkFrom_concat (.slice elem) rfl rfl] at helem
      exact .within h helem
  | array len elem =>
      have helem := passes_walkFrom h root (way ++ [.array len elem]) elem
      rw [← walkFrom_concat (.array len elem) rfl rfl] at helem
      exact .within h helem
  | pointer elem =>
      have helem := passes_walkFrom h root (way ++ [.pointer elem]) elem
      rw [← walkFrom_concat (.pointer elem) rfl rfl] at helem
      exact .within h helem
  | map key value =>
      have hkey := passes_walkFrom h root (way ++ [.mapKey key value]) key
      rw [← walkFrom_concat (.mapKey key value) rfl rfl] at hkey
      have hvalue := passes_walkFrom h root (way ++ [.mapElem key value]) value
      rw [← walkFrom_concat (.mapElem key value) rfl rfl] at hvalue
      exact .andThen (.within h hkey) (.within h hvalue)
  | interface methods embedded => exact .unhandled _ _
  | func signature => exact .unhandled _ _
  | chan dir elem => exact .unhandled _ _
termination_by structural t

theorem passes_walkFields (h : v.NeverFails) (root : TypeName) (way : List Turn)
    {fields : List (Field GoType)} (some : List (Field GoType)) :
    v.Passes (Tour.Fields root way fields some)
      (v.asking.walkFields root (Way.types way ++ [.struct fields]) (Way.info root way fields)
        some) := by
  match some with
  | [] => exact .done
  | ⟨name, type, tag, embedded, package⟩ :: rest =>
      have htype := passes_walkFrom h root
        (way ++ [.field fields ⟨name, type, tag, embedded, package⟩]) type
      rw [Way.types_concat, Way.package_concat_field, Way.name_concat] at htype
      exact .andThen (.within h htype) (passes_walkFields h root way rest)
termination_by structural some

end

/-! # Where a walk is given up -/

def Tours (v : Visitor σ) (root : TypeName) (t : GoType) (s : σ) (stations : List Station) :
    Prop :=
  Tour.From root [] t stations ∧ exists u, v.Answered s (Station.calls stations) u

def Reaches (v : Visitor σ) (root : TypeName) (t : GoType) (s : σ) (way : List Turn)
    (node : GoType) : Prop :=
  exists stations, v.Tours root t s stations ∧ .closed way node ∈ stations

structure FollowsTour (v : Visitor σ) (root : TypeName) (t : GoType) (s : σ) : Prop where
  /-- There is one tour. -/
  only : exists stations, v.Tours root t s stations ∧
    forall others, v.Tours root t s others -> others = stations
  /-- What the tour reaches are the interfaces, functions and channels of the type, each below
  the branches on its way, which were entered and not left. -/
  inside : forall before way node after,
    v.Tours root t s (before ++ .closed way node :: after) ->
      Way.Leads t way node ∧ node.isClosed = true ∧
        HookCall.opened [] (Station.calls before) = Way.branches root way
  /-- All of them are reached that have no skipped branch on their way. -/
  thorough : forall stations way node, v.Tours root t s stations -> Way.Leads t way node ->
    node.isClosed = true -> .closed way node ∈ stations ∨
      exists place, place ∈ Way.branches root way ∧
        .call (.enter place.1 place.2 .skip) ∈ stations
  /-- The walk ends well exactly if there is none. -/
  ok_iff : (exists u, (v.walk root t).run s = (.ok (), u)) ↔
    forall way node, ¬ v.Reaches root t s way node
  /-- Then it makes the calls of the tour. -/
  whole : forall calls, v.Tours root t s (calls.map .call) ->
    exists u, (v.walk root t).run s = (.ok (), u) ∧ v.Answered s calls u ∧
      v.asks root t s = calls.map HookCall.ask
  /-- Otherwise it makes the calls before the first one and fails there. -/
  first : forall before way node after,
    v.Tours root t s (before.map .call ++ .closed way node :: after) ->
      exists u, (v.walk root t).run s =
          (.error (.unhandledKind (node.shape ++ " (" ++ node.text ++ ")")), u) ∧
        v.Answered s before u ∧ v.asks root t s = before.map HookCall.ask

theorem Tours.unique {root : TypeName} {t : GoType} {s : σ} {stations others : List Station}
    (h : v.Tours root t s stations) (h' : v.Tours root t s others) : others = stations := by
  obtain ⟨hstations, u, hanswered⟩ := h
  obtain ⟨hothers, w, hanswered'⟩ := h'
  exact chooses_from t s w u others stations hothers hstations hanswered' hanswered

theorem exists_ending (h : v.NeverFails) (root : TypeName) (t : GoType) (s : σ) :
    exists stations result u asks, v.Tours root t s stations ∧
      (v.walk root t).run s = (result, u) ∧ v.asks root t s = asks ∧
        v.Ending s stations result u asks := by
  obtain ⟨stations, w, result, u, asks, hstations, hanswered, hending, hrun⟩ :=
    passes_walkFrom h root [] t s []
  have hwalk := (v.seesPositions root t s).undisturbed
  have hasking : (v.asking.walk root t).run (s, []) = (result, u, asks) := hrun
  rw [hasking] at hwalk
  obtain ⟨hresult, hrest⟩ := Prod.mk.inj hwalk
  obtain ⟨hu, hasks⟩ := Prod.mk.inj hrest
  exact ⟨stations, result, u, asks, ⟨hstations, w, hanswered⟩, Prod.ext hresult.symm hu.symm,
    hasks.symm, hending⟩

theorem Ending.of_whole {s u : σ} {calls : List HookCall} {result : Except Error Unit}
    {asks : List Ask} (h : v.Ending s (calls.map .call) result u asks) :
    result = .ok () ∧ v.Answered s calls u ∧ asks = calls.map HookCall.ask := by
  generalize hstations : calls.map Station.call = stations at h
  cases h with
  | @whole others _ answered =>
      have hcalls := congrArg Station.calls hstations
      rw [Station.calls_map_call, Station.calls_map_call] at hcalls
      rw [hcalls]
      exact ⟨rfl, answered, rfl⟩
  | short _ => exact absurd hstations.symm Station.split_ne_map_call

theorem Ending.of_short {s u : σ} {before : List HookCall} {way : List Turn} {node : GoType}
    {after : List Station} {result : Except Error Unit} {asks : List Ask}
    (h : v.Ending s (before.map .call ++ .closed way node :: after) result u asks) :
    result = .error (.unhandledKind (node.shape ++ " (" ++ node.text ++ ")")) ∧
      v.Answered s before u ∧ asks = before.map HookCall.ask := by
  generalize hstations : before.map Station.call ++ .closed way node :: after = stations at h
  cases h with
  | whole _ => exact absurd hstations Station.split_ne_map_call
  | short answered =>
      obtain ⟨rfl, rfl⟩ := Station.split_inj hstations
      exact ⟨rfl, answered, rfl⟩

/-- A walk of a visitor that never fails ends well if it comes to no interface, function or
channel, and at the first one that it comes to it fails. -/
theorem followsTour (v : Visitor σ) (h : v.NeverFails) (root : TypeName) (t : GoType) (s : σ) :
    v.FollowsTour root t s := by
  obtain ⟨stations, result, u, asks, htours, hrun, hasks, hending⟩ := exists_ending h root t s
  have hsettled {others : List Station} (hothers : v.Tours root t s others) :
      Station.Placed root t [] others := (Tour.From.settled t (.here t) hothers.1).1
  exact {
    only := ⟨stations, htours, fun others hothers => htours.unique hothers⟩
    inside := by
      intro before way node after hothers
      have hplaced := Station.placed_append.1 (hsettled hothers)
      exact hplaced.2.1
    thorough := by
      intro others way node hothers leads hclosed
      exact Tour.From.thorough leads hclosed hothers.1
    ok_iff := by
      constructor
      · rintro ⟨w, hok⟩ way node ⟨others, hothers, hmem⟩
        cases htours.unique hothers
        rw [hrun] at hok
        cases hok
        cases hending with
        | whole _ => simp at hmem
      · intro hnone
        cases hending with
        | whole _ => exact ⟨u, hrun⟩
        | @short before way node after _ _ =>
            exact absurd ⟨_, htours, by simp⟩ (hnone way node)
    whole := by
      intro calls hcalls
      cases htours.unique hcalls
      obtain ⟨rfl, hanswered, rfl⟩ := hending.of_whole
      exact ⟨u, hrun, hanswered, hasks⟩
    first := by
      intro before way node after hbefore
      cases htours.unique hbefore
      obtain ⟨rfl, hanswered, rfl⟩ := hending.of_short
      exact ⟨u, hrun, hanswered, hasks⟩ }

theorem neverFails_waltz : waltz.NeverFails where
  enter _ _ _ := ⟨_, _, rfl⟩
  leave _ _ _ := ⟨_, rfl⟩
  visit _ _ _ := ⟨_, rfl⟩

/-- `struct { P *chan int; F []func(); I interface{} }` -/
def hiddenChannel : GoType :=
  .struct [⟨"P", .pointer (.chan .both (.basic .int)), none, false, "p"⟩,
    ⟨"F", .slice (.func ⟨[], [], false⟩), none, false, "p"⟩,
    ⟨"I", .interface [] [], none, false, "p"⟩]

/-- The channel is behind a pointer that is skipped, and the function comes before the
interface. -/
theorem followsTour_waltz :
    waltz.NeverFails ∧ waltz.FollowsTour (.declared "p" "S") hiddenChannel 0 ∧
      (waltz.walk (.declared "p" "S") hiddenChannel).run 0 =
        (.error (.unhandledKind "signature (func())"), 5) :=
  ⟨neverFails_waltz, followsTour waltz neverFails_waltz (.declared "p" "S") hiddenChannel 0, rfl⟩

end Visitor
end GoAtlas
