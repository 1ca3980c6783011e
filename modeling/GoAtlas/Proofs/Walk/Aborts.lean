import GoAtlas.Proofs.Walk.FanOut
import GoAtlas.Proofs.Walk.Traversal
import Mathlib.Data.List.Forall2

/-!
# Aborted walks

A scripted visitor that fails stops the whole walk.  Compared with the walk of the same scripts
without their fail rules, the events are cut off right after the first one that fails.
-/

namespace GoAtlas

namespace Script

def lenient (s : Script) : Script := { s with fails := [] }

def failure? (s : Script) (hook label : String) : Option Error :=
  (s.fails.find? fun r => r.fits hook label).map fun r => .visitor r.message

def errorAt? (scripts : List (Option Script)) (e : Event) : Option Error :=
  scripts[e.visitor]?.join.bind fun s => s.failure? e.hook e.label

end Script

variable {α β : Type} {fails : Event -> Option Error}

/-- How a run ends if the first event that fails stops it: the event is the last one, and its
error is the result. -/
inductive Cut (fails : Event -> Option Error) :
    Except Error α × List Event -> Except Error α × List Event -> Prop
  | whole {result : Except Error α} {events : List Event}
      (clear : forall e, e ∈ events -> fails e = none) : Cut fails (result, events) (result, events)
  | short {result : Except Error α} {before after : List Event} {e : Event} {error : Error}
      (clear : forall e, e ∈ before -> fails e = none) (failed : fails e = some error) :
      Cut fails (result, before ++ e :: after) (.error error, before ++ [e])

namespace Cut

theorem prepend {events : List Event} {whole rest : Except Error α × List Event}
    (clear : forall e, e ∈ events -> fails e = none) (h : Cut fails whole rest) :
    Cut fails (whole.1, events ++ whole.2) (rest.1, events ++ rest.2) := by
  cases h with
  | whole clear' =>
      apply Cut.whole
      intro e he
      rcases List.mem_append.1 he with he | he
      · exact clear e he
      · exact clear' e he
  | @short result before after e error clear' failed =>
      have hclear : forall e, e ∈ events ++ before -> fails e = none := by
        intro e he
        rcases List.mem_append.1 he with he | he
        · exact clear e he
        · exact clear' e he
      have hcut : Cut fails (result, (events ++ before) ++ e :: after)
          (.error error, (events ++ before) ++ [e]) := .short hclear failed
      simpa using hcut

end Cut

namespace Visit

variable {σ : Type} {x x' : Visit (List Event) α} {f f' : α -> Visit (List Event) β}

def Cuts (fails : Event -> Option Error) (x x' : Visit (List Event) α) : Prop :=
  forall log, exists whole cut, Cut fails whole cut ∧
    x.run log = (whole.1, log ++ whole.2) ∧ x'.run log = (cut.1, log ++ cut.2)

namespace Cuts

theorem pure (a : α) : Cuts fails (Pure.pure a) (Pure.pure a) := by
  intro log
  have hrun : (Pure.pure a : Visit (List Event) α).run log = (.ok a, log ++ []) := by
    rw [List.append_nil]
    rfl
  exact ⟨(.ok a, []), (.ok a, []), .whole (by simp), hrun, hrun⟩

theorem throw (error : Error) :
    Cuts fails (MonadExcept.throw error : Visit (List Event) α) (MonadExcept.throw error) := by
  intro log
  have hrun : (MonadExcept.throw error : Visit (List Event) α).run log =
      (.error error, log ++ []) := by
    rw [List.append_nil]
    rfl
  exact ⟨(.error error, []), (.error error, []), .whole (by simp), hrun, hrun⟩

theorem exists_run_bind {log : List Event} {whole : Except Error α × List Event}
    (hx : x.run log = (whole.1, log ++ whole.2)) (hf : forall a, Cuts fails (f a) (f' a)) :
    exists result more, (x >>= f).run log = (result, log ++ (whole.2 ++ more)) := by
  obtain ⟨result, events⟩ := whole
  cases result with
  | error error => exact ⟨.error error, [], by simpa using run_bind_of_error hx⟩
  | ok a =>
      obtain ⟨next, -, -, hnext, -⟩ := hf a (log ++ events)
      exact ⟨next.1, next.2, by simpa [hnext] using run_bind_of_ok (f := f) hx⟩

theorem bind (hx : Cuts fails x x') (hf : forall a, Cuts fails (f a) (f' a)) :
    Cuts fails (x >>= f) (x' >>= f') := by
  intro log
  obtain ⟨whole, cut, hcut, hwhole, hrun⟩ := hx log
  cases hcut with
  | @short result before after e error clear failed =>
      obtain ⟨result', more, hmore⟩ := exists_run_bind hwhole hf
      refine ⟨(result', before ++ e :: (after ++ more)), _, .short clear failed, ?_,
        run_bind_of_error hrun⟩
      simpa using hmore
  | @whole result events clear =>
      cases result with
      | error error =>
          exact ⟨(.error error, events), _, .whole clear, run_bind_of_error hwhole,
            run_bind_of_error hrun⟩
      | ok a =>
          obtain ⟨next, cut, hcut, hnext, hstop⟩ := hf a (log ++ events)
          refine ⟨_, _, hcut.prepend clear, ?_, ?_⟩
          · simpa [hnext] using run_bind_of_ok (f := f) hwhole
          · simpa [hstop] using run_bind_of_ok (f := f') hrun

end Cuts
end Visit

namespace Visitor

/-- Every hook of `v'` stops after the first event that fails, where `v` goes on. -/
structure Cuts (fails : Event -> Option Error) (v v' : Visitor (List Event)) : Prop where
  enter (c : Context) (b : Branch) : Visit.Cuts fails (v.enter c b) (v'.enter c b)
  leave (c : Context) (b : Branch) : Visit.Cuts fails (v.leave c b) (v'.leave c b)
  visit (c : Context) (l : Leaf) : Visit.Cuts fails (v.visit c l) (v'.visit c l)

namespace Cuts

variable {v v' : Visitor (List Event)} {vs vs' : List (Visitor (List Event))}

theorem idle : Cuts fails Visitor.idle Visitor.idle where
  enter _ _ := .pure _
  leave _ _ := .pure _
  visit _ _ := .pure _

/-! # Fan-outs -/

theorem enterAll (h : List.Forall₂ (Cuts fails) vs vs') (c : Context) (b : Branch) :
    Visit.Cuts fails (Visitor.enterAll c b vs) (Visitor.enterAll c b vs') := by
  induction h with
  | nil => exact .pure _
  | cons hv _ ih =>
      apply (hv.enter c b).bind
      intro flow
      cases flow with
      | skip => exact .pure _
      | descend => exact ih

theorem leaveAll (h : List.Forall₂ (Cuts fails) vs vs') (c : Context) (b : Branch) :
    Visit.Cuts fails (Visitor.leaveAll c b vs) (Visitor.leaveAll c b vs') := by
  induction h with
  | nil => exact .pure _
  | cons hv _ ih => exact (hv.leave c b).bind fun _ => ih

theorem visitAll (h : List.Forall₂ (Cuts fails) vs vs') (c : Context) (l : Leaf) :
    Visit.Cuts fails (Visitor.visitAll c l vs) (Visitor.visitAll c l vs') := by
  induction h with
  | nil => exact .pure _
  | cons hv _ ih => exact (hv.visit c l).bind fun _ => ih

theorem all (h : List.Forall₂ (Cuts fails) vs vs') :
    Cuts fails (Visitor.all vs) (Visitor.all vs') where
  enter := enterAll h
  leave := leaveAll h
  visit := visitAll h

/-! # Walks -/

theorem within (h : Cuts fails v v') (c : Context) (b : Branch)
    {body body' : Visit (List Event) Unit} (hbody : Visit.Cuts fails body body') :
    Visit.Cuts fails (v.within c b body) (v'.within c b body') := by
  apply (h.enter c b).bind
  intro flow
  cases flow with
  | skip => exact .pure _
  | descend => exact hbody.bind fun _ => h.leave c b

mutual

theorem walkFrom (h : Cuts fails v v') (root : TypeName) (stack : List GoType)
    (package name : String) (t : GoType) :
    Visit.Cuts fails (v.walkFrom root stack package name t)
      (v'.walkFrom root stack package name t) := by
  cases t with
  | basic kind => exact h.visit _ _
  | named n => exact h.visit _ _
  | struct fields => exact h.within _ _ (walkFields h _ _ _ fields)
  | slice elem => exact h.within _ _ (walkFrom h _ _ _ _ elem)
  | array len elem => exact h.within _ _ (walkFrom h _ _ _ _ elem)
  | pointer elem => exact h.within _ _ (walkFrom h _ _ _ _ elem)
  | map key value =>
      exact (h.within _ _ (walkFrom h _ _ _ _ key)).bind fun _ =>
        h.within _ _ (walkFrom h _ _ _ _ value)
  | interface methods embedded => exact .throw _
  | func signature => exact .throw _
  | chan dir elem => exact .throw _
termination_by structural t

theorem walkFields (h : Cuts fails v v') (root : TypeName) (stack : List GoType)
    (info : StructInfo) (fields : List (Field GoType)) :
    Visit.Cuts fails (v.walkFields root stack info fields)
      (v'.walkFields root stack info fields) := by
  match fields with
  | [] => exact .pure _
  | ⟨name, type, tag, embedded, package⟩ :: rest =>
      exact (h.within _ _ (walkFrom h _ _ _ _ type)).bind fun _ => walkFields h _ _ _ rest
termination_by structural fields

end

/-- A walk that starts with an empty log is cut off at the first event that fails. -/
theorem cut_walk (h : Cuts fails v v') (root : TypeName) (t : GoType) :
    Cut fails ((v.walk root t).run []) ((v'.walk root t).run []) := by
  obtain ⟨⟨result, events⟩, ⟨result', events'⟩, hcut, hwhole, hrun⟩ :=
    h.walkFrom root [] root.packagePath root.name t []
  have hwhole' : (v.walk root t).run [] = (result, events) := hwhole
  have hrun' : (v'.walk root t).run [] = (result', events') := hrun
  rw [hwhole', hrun']
  exact hcut

end Cuts
end Visitor

/-! # Scripts -/

namespace Script

theorem cuts_call {s : Script} {e : Event} (h : fails e = s.failure? e.hook e.label) :
    Visit.Cuts fails (s.lenient.call e) (s.call e) := by
  intro log
  have hlenient : (s.lenient.call e).run log = (.ok (), log ++ [e]) := rfl
  cases hfind : s.fails.find? fun r => r.fits e.hook e.label with
  | none =>
      have hrun : (s.call e).run log = (.ok (), log ++ [e]) := by
        rw [call, hfind]
        rfl
      have hclear : forall e', e' ∈ [e] -> fails e' = none := by
        simp [h, failure?, hfind]
      exact ⟨_, _, .whole hclear, hlenient, hrun⟩
  | some r =>
      have hrun : (s.call e).run log = (.error (.visitor r.message), log ++ [e]) := by
        rw [call, hfind]
        rfl
      have hfailed : fails e = some (.visitor r.message) := by
        simp [h, failure?, hfind]
      have hcut : Cut fails (.ok (), [] ++ e :: []) (.error (.visitor r.message), [] ++ [e]) :=
        .short (by simp) hfailed
      exact ⟨_, _, hcut, hlenient, hrun⟩

theorem cuts_visitor {s : Script} {index : Nat}
    (h : forall e : Event, e.visitor = index -> fails e = s.failure? e.hook e.label) :
    Visitor.Cuts fails (s.lenient.visitor index) (s.visitor index) where
  enter c b := by
    have hcall := cuts_call (s := s) (h ⟨index, "enter_" ++ b.word, b.label, c, b.info?⟩ rfl)
    simp only [visitor, show s.lenient.has = s.has from rfl,
      show s.lenient.flow = s.flow from rfl]
    split
    · exact hcall.bind fun _ => .pure _
    · exact .pure _
  leave c b := by
    have hcall := cuts_call (s := s) (h ⟨index, "leave_" ++ b.word, b.label, c, b.info?⟩ rfl)
    simp only [visitor, show s.lenient.has = s.has from rfl]
    split
    · exact hcall
    · exact .pure _
  visit c l := by
    have hcall := cuts_call (s := s) (h ⟨index, "visit_" ++ l.word, l.label, c, none⟩ rfl)
    simp only [visitor, show s.lenient.has = s.has from rfl]
    split
    · exact hcall
    · exact .pure _

def member (entry : Option Script × Nat) : Visitor (List Event) :=
  match entry.1 with
  | some s => s.visitor entry.2
  | none => Visitor.idle

def members (scripts : List (Option Script)) : List (Visitor (List Event)) :=
  scripts.zipIdx.map member

theorem visitors_eq (scripts : List (Option Script)) :
    visitors scripts = Visitor.all (members scripts) := by
  unfold visitors members
  dsimp only
  split
  · rename_i entry hentry
    rw [hentry]
    exact (Visitor.all_singleton (member entry)).symm
  · rfl

theorem cuts_member {scripts : List (Option Script)} {script : Option Script} {index : Nat}
    (h : scripts[index]? = some script) :
    Visitor.Cuts (errorAt? scripts) (member (script.map lenient, index))
      (member (script, index)) := by
  cases script with
  | none => exact .idle
  | some s =>
      apply cuts_visitor
      rintro e rfl
      simp [errorAt?, h]

theorem cuts_members (scripts : List (Option Script)) :
    List.Forall₂ (Visitor.Cuts (errorAt? scripts)) (members (scripts.map (Option.map lenient)))
      (members scripts) := by
  rw [members, members, List.zipIdx_map, List.map_map, List.forall₂_map_left_iff,
    List.forall₂_map_right_iff, List.forall₂_same]
  rintro ⟨script, index⟩ hentry
  exact cuts_member (List.mk_mem_zipIdx_iff_getElem?.1 hentry)

/-- A walk with fail rules is the walk without them, cut off at the first event that fails: there
the rule's error is the result, and no other hook of any visitor is called.  This holds for a
single visitor as it is and for every fan-out. -/
theorem cut_lenient_walk (scripts : List (Option Script)) (root : TypeName) (t : GoType) :
    Cut (errorAt? scripts) (walk (scripts.map (Option.map lenient)) root t)
        (walk scripts root t) ∧
      Cut (errorAt? scripts)
        (((Visitor.all (members (scripts.map (Option.map lenient)))).walk root t).run [])
        (((Visitor.all (members scripts)).walk root t).run []) := by
  have hcut := (Visitor.Cuts.all (cuts_members scripts)).cut_walk root t
  constructor
  · rw [walk, walk, visitors_eq, visitors_eq]
    exact hcut
  · exact hcut

end Script
end GoAtlas
