import GoAtlas.Proofs.Walk.Positions

/-!
# Tours

A walk is given up at the first interface, function or channel that it comes to.  A tour goes on
behind it: it goes through a type from left to right, passes over the branches that are skipped,
and notes the calls of hooks and the types that cannot be walked, with the ways to them.  A visitor
that never fails answers one tour, and its walk is this tour up to the first type that cannot be
walked.
-/

namespace GoAtlas

namespace GoType

def isClosed : GoType -> Bool
  | interface _ _ => true
  | func _ => true
  | chan _ _ => true
  | _ => false

end GoType

/-! # Branches on a way -/

namespace Turn

def branches (root : TypeName) (way : List Turn) : Turn -> List (Context × Branch)
  | field fields chosen =>
      [(Way.inside root way (.struct fields), .struct (Way.info root way fields)),
        (Way.inside root way (.struct fields), .field (Way.info root way fields) chosen)]
  | slice elem => [(Way.inside root way (.slice elem), .slice elem)]
  | array len elem => [(Way.inside root way (.array len elem), .array len elem)]
  | pointer elem => [(Way.inside root way (.pointer elem), .pointer elem)]
  | mapKey key value => [(Way.inside root way (.map key value), .mapKey key)]
  | mapElem key value => [(Way.inside root way (.map key value), .mapElem value)]

end Turn

namespace Way

def branchesFrom (root : TypeName) (way : List Turn) : List Turn -> List (Context × Branch)
  | [] => []
  | turn :: rest => turn.branches root way ++ branchesFrom root (way ++ [turn]) rest

def branches (root : TypeName) (way : List Turn) : List (Context × Branch) :=
  branchesFrom root [] way

theorem branchesFrom_concat (root : TypeName) (turn : Turn) (rest : List Turn) :
    forall way, branchesFrom root way (rest ++ [turn]) =
      branchesFrom root way rest ++ turn.branches root (way ++ rest) := by
  induction rest with
  | nil =>
      intro way
      simp [branchesFrom]
  | cons first rest ih =>
      intro way
      simp [branchesFrom, ih]

theorem branches_concat (root : TypeName) (way : List Turn) (turn : Turn) :
    branches root (way ++ [turn]) = branches root way ++ turn.branches root way := by
  simpa [branches] using branchesFrom_concat root turn way []

end Way

/-! # Tours of a type -/

/-- What a tour comes to: a hook that is called, or a type that cannot be walked. -/
inductive Station where
  | call (call : HookCall)
  | closed (way : List Turn) (node : GoType)

namespace Station

def call? : Station -> Option HookCall
  | call answered => some answered
  | closed _ _ => none

def calls (stations : List Station) : List HookCall :=
  stations.filterMap call?

@[simp] theorem calls_nil : calls [] = [] := rfl

@[simp] theorem calls_call (answered : HookCall) (stations : List Station) :
    calls (call answered :: stations) = answered :: calls stations :=
  rfl

@[simp] theorem calls_closed (way : List Turn) (node : GoType) (stations : List Station) :
    calls (closed way node :: stations) = calls stations :=
  rfl

@[simp] theorem calls_append (before after : List Station) :
    calls (before ++ after) = calls before ++ calls after :=
  List.filterMap_append

@[simp] theorem calls_map_call (answered : List HookCall) :
    calls (answered.map Station.call) = answered := by
  induction answered with
  | nil => rfl
  | cons first rest ih => simp [ih]

theorem split_ne_map_call {before calls : List HookCall} {way : List Turn} {node : GoType}
    {after : List Station} : before.map call ++ closed way node :: after ≠ calls.map call := by
  intro h
  have hmem : closed way node ∈ calls.map call := by simp [← h]
  simp at hmem

/-- The calls before the first type that cannot be walked, and what this type is. -/
theorem split_inj {before before' : List HookCall} {way way' : List Turn} {node node' : GoType}
    {after after' : List Station}
    (h : before.map call ++ closed way node :: after =
      before'.map call ++ closed way' node' :: after') : before = before' ∧ node = node' := by
  induction before generalizing before' with
  | nil =>
      cases before' with
      | nil => simp_all
      | cons first rest => simp at h
  | cons first rest ih =>
      cases before' with
      | nil => simp at h
      | cons first' rest' =>
          simp only [List.map_cons, List.cons_append, List.cons.injEq, call.injEq] at h
          obtain ⟨hfirst, hrest⟩ := h
          obtain ⟨hbefore, hnode⟩ := ih hrest
          exact ⟨by rw [hfirst, hbefore], hnode⟩

end Station

namespace Tour

/-- A branch is skipped, or it is entered, toured inside and left. -/
inductive Around (c : Context) (b : Branch) (Inside : List Station -> Prop) :
    List Station -> Prop
  | skipped : Around c b Inside [.call (.enter c b .skip)]
  | entered {below : List Station} (within : Inside below) :
      Around c b Inside (.call (.enter c b .descend) :: (below ++ [.call (.leave c b)]))

def Then (First Second : List Station -> Prop) (stations : List Station) : Prop :=
  exists before after, First before ∧ Second after ∧ stations = before ++ after

mutual

def From (root : TypeName) (way : List Turn) : GoType -> List Station -> Prop
  | .basic kind => Eq [.call (.visit (Way.outside root way) (.basic kind))]
  | .named n => Eq [.call (.visit (Way.outside root way) (.named n))]
  | .struct fields =>
      Around (Way.inside root way (.struct fields)) (.struct (Way.info root way fields))
        (Fields root way fields fields)
  | .slice elem =>
      Around (Way.inside root way (.slice elem)) (.slice elem)
        (From root (way ++ [.slice elem]) elem)
  | .array len elem =>
      Around (Way.inside root way (.array len elem)) (.array len elem)
        (From root (way ++ [.array len elem]) elem)
  | .pointer elem =>
      Around (Way.inside root way (.pointer elem)) (.pointer elem)
        (From root (way ++ [.pointer elem]) elem)
  | .map key value =>
      Then
        (Around (Way.inside root way (.map key value)) (.mapKey key)
          (From root (way ++ [.mapKey key value]) key))
        (Around (Way.inside root way (.map key value)) (.mapElem value)
          (From root (way ++ [.mapElem key value]) value))
  | .interface methods embedded => Eq [.closed way (.interface methods embedded)]
  | .func signature => Eq [.closed way (.func signature)]
  | .chan dir elem => Eq [.closed way (.chan dir elem)]

def Fields (root : TypeName) (way : List Turn) (fields : List (Field GoType)) :
    List (Field GoType) -> List Station -> Prop
  | [] => Eq []
  | ⟨name, type, tag, embedded, package⟩ :: rest =>
      Then
        (Around (Way.inside root way (.struct fields))
          (.field (Way.info root way fields) ⟨name, type, tag, embedded, package⟩)
          (From root (way ++ [.field fields ⟨name, type, tag, embedded, package⟩]) type))
        (Fields root way fields rest)

end

end Tour

/-! # What stands on a tour -/

namespace HookCall

def step (opened : List (Context × Branch)) : HookCall -> List (Context × Branch)
  | enter c b .descend => opened ++ [(c, b)]
  | enter _ _ .skip => opened
  | leave _ _ => opened.dropLast
  | visit _ _ => opened

def opened (before : List (Context × Branch)) (calls : List HookCall) : List (Context × Branch) :=
  calls.foldl step before

end HookCall

namespace Station

/-- Each type that cannot be walked is a node of `t`, and where it stands exactly the branches on
its way are open. -/
def Placed (root : TypeName) (t : GoType) :
    List (Context × Branch) -> List Station -> Prop
  | _, [] => True
  | opened, call answered :: rest => Placed root t (answered.step opened) rest
  | opened, closed way node :: rest =>
      (Way.Leads t way node ∧ node.isClosed = true ∧ opened = Way.branches root way) ∧
        Placed root t opened rest

variable {root : TypeName} {t : GoType} {opened : List (Context × Branch)}

theorem placed_append {before after : List Station} :
    Placed root t opened (before ++ after) ↔
      Placed root t opened before ∧
        Placed root t (HookCall.opened opened (calls before)) after := by
  induction before generalizing opened with
  | nil => simp [Placed, HookCall.opened]
  | cons station before ih =>
      cases station with
      | call answered => simp [Placed, ih, HookCall.opened]
      | closed way node => simp [Placed, ih, and_assoc]

end Station

namespace Tour

variable {root : TypeName} {t : GoType} {opened : List (Context × Branch)}

def Settled (root : TypeName) (t : GoType) (opened : List (Context × Branch))
    (stations : List Station) : Prop :=
  Station.Placed root t opened stations ∧
    HookCall.opened opened (Station.calls stations) = opened

theorem Then.settled {First Second : List Station -> Prop} {stations : List Station}
    (h : Then First Second stations)
    (hfirst : forall before, First before -> Settled root t opened before)
    (hsecond : forall after, Second after -> Settled root t opened after) :
    Settled root t opened stations := by
  obtain ⟨before, after, hbefore, hafter, rfl⟩ := h
  obtain ⟨hplaced, hopen⟩ := hfirst before hbefore
  obtain ⟨hplaced', hopen'⟩ := hsecond after hafter
  constructor
  · rw [Station.placed_append, hopen]
    exact ⟨hplaced, hplaced'⟩
  · rw [Station.calls_append, HookCall.opened, List.foldl_append]
    exact (congrArg (HookCall.opened · (Station.calls after)) hopen).trans hopen'

theorem Around.settled {c : Context} {b : Branch} {Inside : List Station -> Prop}
    {stations : List Station} (h : Around c b Inside stations)
    (hinside : forall below, Inside below -> Settled root t (opened ++ [(c, b)]) below) :
    Settled root t opened stations := by
  cases h with
  | skipped => exact ⟨trivial, rfl⟩
  | @entered below within =>
      obtain ⟨hplaced, hopen⟩ := hinside below within
      constructor
      · show Station.Placed root t (opened ++ [(c, b)]) (below ++ [.call (.leave c b)])
        rw [Station.placed_append]
        exact ⟨hplaced, trivial⟩
      · unfold HookCall.opened at hopen ⊢
        simp [HookCall.step, hopen]

mutual

theorem From.settled (u : GoType) {way : List Turn} {stations : List Station}
    (leads : Way.Leads t way u) (h : From root way u stations) :
    Settled root t (Way.branches root way) stations := by
  cases u with
  | basic kind =>
      cases h
      exact ⟨trivial, rfl⟩
  | named n =>
      cases h
      exact ⟨trivial, rfl⟩
  | struct fields =>
      exact Around.settled h fun below within =>
        Fields.settled fields leads (fun _ hmem => hmem) within
  | slice elem =>
      apply Around.settled h
      intro below within
      have hbelow := From.settled elem (leads.concat (.slice elem) trivial) within
      rwa [Way.branches_concat] at hbelow
  | array len elem =>
      apply Around.settled h
      intro below within
      have hbelow := From.settled elem (leads.concat (.array len elem) trivial) within
      rwa [Way.branches_concat] at hbelow
  | pointer elem =>
      apply Around.settled h
      intro below within
      have hbelow := From.settled elem (leads.concat (.pointer elem) trivial) within
      rwa [Way.branches_concat] at hbelow
  | map key value =>
      apply Then.settled h
      · intro keys hkeys
        apply Around.settled hkeys
        intro below within
        have hbelow := From.settled key (leads.concat (.mapKey key value) trivial) within
        rwa [Way.branches_concat] at hbelow
      · intro values hvalues
        apply Around.settled hvalues
        intro below within
        have hbelow := From.settled value (leads.concat (.mapElem key value) trivial) within
        rwa [Way.branches_concat] at hbelow
  | interface methods embedded =>
      cases h
      exact ⟨⟨⟨leads, rfl, rfl⟩, trivial⟩, rfl⟩
  | func signature =>
      cases h
      exact ⟨⟨⟨leads, rfl, rfl⟩, trivial⟩, rfl⟩
  | chan dir elem =>
      cases h
      exact ⟨⟨⟨leads, rfl, rfl⟩, trivial⟩, rfl⟩
termination_by structural u

theorem Fields.settled {fields : List (Field GoType)} (some : List (Field GoType))
    {way : List Turn} {stations : List Station} (leads : Way.Leads t way (.struct fields))
    (hsome : forall field, field ∈ some -> field ∈ fields)
    (h : Fields root way fields some stations) :
    Settled root t (Way.branches root way ++
      [(Way.inside root way (.struct fields), .struct (Way.info root way fields))]) stations := by
  match some with
  | [] =>
      cases h
      exact ⟨trivial, rfl⟩
  | ⟨name, type, tag, embedded, package⟩ :: rest =>
      have hfield := hsome _ List.mem_cons_self
      apply Then.settled h
      · intro before hbefore
        apply Around.settled hbefore
        intro below within
        have hbelow := From.settled type
          (leads.concat (.field fields ⟨name, type, tag, embedded, package⟩) hfield) within
        rw [Way.branches_concat] at hbelow
        rw [List.append_assoc]
        exact hbelow
      · intro after hafter
        exact Fields.settled rest leads
          (fun field hmem => hsome field (List.mem_cons_of_mem _ hmem)) hafter
termination_by structural some

end

/-! # Nothing is left out -/

/-- Every type behind the way that cannot be walked is come to, unless a branch on the rest of its
way is skipped. -/
def Thorough (root : TypeName) (way rest : List Turn) (node : GoType)
    (stations : List Station) : Prop :=
  .closed (way ++ rest) node ∈ stations ∨
    exists place, place ∈ Way.branchesFrom root way rest ∧
      .call (.enter place.1 place.2 .skip) ∈ stations

variable {rest : List Turn} {way : List Turn} {node : GoType} {stations : List Station}

theorem Thorough.mono {more : List Station} (h : Thorough root way rest node stations)
    (hmore : forall station, station ∈ stations -> station ∈ more) :
    Thorough root way rest node more := by
  rcases h with hclosed | ⟨place, hplace, hskip⟩
  · exact .inl (hmore _ hclosed)
  · exact .inr ⟨place, hplace, hmore _ hskip⟩

theorem Around.thorough {c : Context} {b : Branch} {Inside : List Station -> Prop}
    {way' rest' : List Turn} (h : Around c b Inside stations)
    (hplace : (c, b) ∈ Way.branchesFrom root way rest) (hway : way' ++ rest' = way ++ rest)
    (hbranches : forall place, place ∈ Way.branchesFrom root way' rest' ->
      place ∈ Way.branchesFrom root way rest)
    (hinside : forall below, Inside below -> Thorough root way' rest' node below) :
    Thorough root way rest node stations := by
  cases h with
  | skipped => exact .inr ⟨_, hplace, List.mem_cons_self⟩
  | @entered below within =>
      rcases hinside below within with hclosed | ⟨place, hmem, hskip⟩
      · rw [hway] at hclosed
        exact .inl (by simp [hclosed])
      · exact .inr ⟨place, hbranches place hmem, by simp [hskip]⟩

theorem Around.thorough_turn {c : Context} {b : Branch} {Inside : List Station -> Prop}
    {turn : Turn} (h : Around c b Inside stations) (hplace : (c, b) ∈ turn.branches root way)
    (hinside : forall below, Inside below -> Thorough root (way ++ [turn]) rest node below) :
    Thorough root way (turn :: rest) node stations :=
  h.thorough (List.mem_append_left _ hplace) (by simp) (fun _ => List.mem_append_right _) hinside

theorem Fields.exists_around {fields some : List (Field GoType)} {chosen : Field GoType}
    (h : Fields root way fields some stations) (hchosen : chosen ∈ some) :
    exists part, Around (Way.inside root way (.struct fields))
        (.field (Way.info root way fields) chosen)
        (From root (way ++ [.field fields chosen]) chosen.type) part ∧
      forall station, station ∈ part -> station ∈ stations := by
  induction some generalizing stations with
  | nil => cases hchosen
  | cons first rest ih =>
      obtain ⟨before, after, hbefore, hafter, rfl⟩ := h
      rcases List.mem_cons.1 hchosen with rfl | hrest
      · exact ⟨before, hbefore, fun _ => List.mem_append_left _⟩
      · obtain ⟨part, hpart, hsub⟩ := ih hafter hrest
        exact ⟨part, hpart, fun station hmem => List.mem_append_right _ (hsub station hmem)⟩

theorem From.thorough {u : GoType} (leads : Way.Leads u rest node) (hclosed : node.isClosed = true)
    (h : From root way u stations) : Thorough root way rest node stations := by
  induction leads generalizing way stations with
  | here u =>
      left
      rw [List.append_nil]
      cases u with
      | interface methods embedded =>
          cases h
          exact List.mem_singleton_self _
      | func signature =>
          cases h
          exact List.mem_singleton_self _
      | chan dir elem =>
          cases h
          exact List.mem_singleton_self _
      | _ => cases hclosed
  | @turn turn rest node sound leads ih =>
      cases turn with
      | field fields chosen =>
          have hstruct : (Way.inside root way (.struct fields),
              Branch.struct (Way.info root way fields)) ∈
              Way.branchesFrom root way (.field fields chosen :: rest) := List.mem_cons_self
          apply Around.thorough h hstruct rfl fun _ => id
          intro below within
          obtain ⟨part, hpart, hsub⟩ := Fields.exists_around within sound
          have hturn := hpart.thorough_turn (List.mem_cons_of_mem _ List.mem_cons_self)
            fun _ hinside => ih hclosed hinside
          exact hturn.mono hsub
      | slice elem =>
          exact Around.thorough_turn h List.mem_cons_self fun _ hinside => ih hclosed hinside
      | array len elem =>
          exact Around.thorough_turn h List.mem_cons_self fun _ hinside => ih hclosed hinside
      | pointer elem =>
          exact Around.thorough_turn h List.mem_cons_self fun _ hinside => ih hclosed hinside
      | mapKey key value =>
          obtain ⟨keys, values, hkeys, _, rfl⟩ := h
          have hturn := Around.thorough_turn hkeys List.mem_cons_self
            fun _ hinside => ih hclosed hinside
          exact hturn.mono fun _ => List.mem_append_left _
      | mapElem key value =>
          obtain ⟨keys, values, _, hvalues, rfl⟩ := h
          have hturn := Around.thorough_turn hvalues List.mem_cons_self
            fun _ hinside => ih hclosed hinside
          exact hturn.mono fun _ => List.mem_append_right _

end Tour

end GoAtlas
