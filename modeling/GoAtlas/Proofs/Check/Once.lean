import GoAtlas.Proofs.Check.PackageTrails

/-!
# A check asks once

A pass along a trail is steady if its links are: it complains, looks up a package or follows a
link, and each of these is steady by itself.  Links are steady whatever is pending, and with them
the whole second pass, so that a check asks for no path twice.
-/

namespace GoAtlas
namespace Scope

structure SteadyLinks (links : Links) : Prop where
  aliased : forall name, Steady Progress.ledger (links.aliased name)
  underlying : forall name, Steady Progress.ledger (links.underlying name)
  const : forall i, Steady Progress.ledger (links.const i)

variable {sc : Scope} {links : Links}

theorem SteadyLinks.follow (hlinks : SteadyLinks links) (k : Pending) :
    Steady Progress.ledger (links.follow k) := by
  match k with
  | .alias name => exact hlinks.aliased name
  | .type name => exact hlinks.underlying name
  | .const i => exact hlinks.const i

/-!
# Passes along a trail
-/

theorem steady_underlyingWithin (hlinks : SteadyLinks links) (fuel : Nat) (type : GoType) :
    Steady Progress.ledger (sc.underlyingWithin links fuel type) := by
  induction fuel generalizing type with
  | zero => exact Steady.pure _
  | succ fuel ih =>
      cases type with
      | named n =>
          cases n with
          | declared package name =>
              unfold underlyingWithin
              split
              · exact hlinks.underlying name
              · apply (Resolve.steady_packageAt package).bind
                intro answer
                split
                · exact Steady.pure _
                · split
                  · exact Steady.pure _
                  · split
                    · exact ih _
                    · exact Steady.pure _
          | builtin name =>
              unfold underlyingWithin
              split
              · exact Steady.pure _
              · exact Steady.pure _
      | _ => exact Steady.pure _

/-- A pass is steady along its trail, and what it finds is what the trail says. -/
theorem moves_of_trail (hlinks : SteadyLinks links) {Fault : Complaint -> Prop} {α : Type}
    {F F' : Links -> Resolve α} {Q : α -> Prop}
    (htrail : Trail sc sc (fun _ _ => True) Fault F F' Q) (answers : Answers) (p : Progress) :
    Q (((F links).run p).under answers).1 ∧
      Moves answers (((F links).run p).asked answers) p.ledger
        (((F links).run p).under answers).2.ledger := by
  induction htrail generalizing p with
  | pure a ha => exact ⟨ha, Moves.refl _⟩
  | bind hF hG ihF ihG =>
      rw [StateT.run_bind, Inquiry.asked_bind, Inquiry.under_bind]
      obtain ⟨ha, hfirst⟩ := ihF p
      obtain ⟨hb, hsecond⟩ := ihG _ ha _
      exact ⟨hb, hfirst.trans hsecond⟩
  | report file line isSoft hfault =>
      exact ⟨trivial, Resolve.steady_report file line isSoft _ answers p⟩
  | follow hk => exact ⟨Pending.knows_all _ _, hlinks.follow _ answers p⟩
  | behind htype =>
      exact ⟨GoType.within_all _, steady_underlyingWithin hlinks chainLimit _ answers p⟩

theorem steady_of_trail (hlinks : SteadyLinks links) {Fault : Complaint -> Prop} {α : Type}
    {F F' : Links -> Resolve α} {Q : α -> Prop}
    (htrail : Trail sc sc (fun _ _ => True) Fault F F' Q) : Steady Progress.ledger (F links) :=
  fun answers p => (moves_of_trail hlinks htrail answers p).2

/-!
# Links
-/

theorem steady_follow {fuel : Nat} {pending : List Pending} {k : Pending}
    (hdeeper : SteadyLinks (sc.linksWithin fuel (k :: pending))) :
    Steady Progress.ledger ((sc.linksWithin (fuel + 1) pending).follow k) := by
  rw [follow_eq]
  apply Steady.get_bind
  intro p
  split
  · exact Steady.pure _
  · exact Steady.pure _
  · next d _ hd =>
      split
      · exact (Resolve.steady_report _ _ _ _).bind fun _ => Steady.pure _
      · obtain ⟨_, _, _, _, _, htrail⟩ := trail_saying (sc.setting_self fun _ _ => trivial) hd
        exact (steady_of_trail hdeeper htrail).bind fun a =>
          Steady.record (fun p => by simp [Progress.ledger]) a

theorem steady_linksWithin (sc : Scope) (fuel : Nat) (pending : List Pending) :
    SteadyLinks (sc.linksWithin fuel pending) := by
  induction fuel generalizing pending with
  | zero => exact ⟨fun _ => Steady.pure _, fun _ => Steady.pure _, fun _ => Steady.pure _⟩
  | succ fuel ih =>
      exact
        { aliased := fun name => steady_follow (ih (.alias name :: pending))
          underlying := fun name => steady_follow (ih (.type name :: pending))
          const := fun i => steady_follow (ih (.const i :: pending)) }

/-!
# The whole check
-/

theorem steady_definitions (sc : Scope) (name : String) :
    Steady Progress.ledger (sc.definitions name) := by
  rw [definitions_eq]
  exact steady_of_trail (sc.steady_linksWithin sc.linkDepth [])
    (trail_definitionsWith (sc.setting_self fun _ _ => trivial) name)

end Scope

theorem moves_checkGo (p : LoadedPackage) (answers : Answers) :
    Moves answers ((checkGo p).asked answers) ⟨Table.empty, []⟩
      (definedUnder answers p).2.ledger := by
  have hfirst := moves_collect p answers
  have hsecond := ((collect p).under answers).scope.steady_definitions p.name answers
    ((collect p).under answers).progress
  rw [checkGo_eq, Inquiry.asked_bind, Inquiry.asked_bind, Inquiry.asked_pure, List.append_nil]
  exact hfirst.trans hsecond

theorem once_checkGo (p : LoadedPackage) : (checkGo p).Once :=
  fun answers => (moves_checkGo p answers).nodup

end GoAtlas
