import GoAtlas.Proofs.Inquiry
import Mathlib.Data.List.Nodup
import Mathlib.Logic.Function.Basic

/-!
# Inquiries under fixed answers

An inquiry that asks for no path twice cannot tell an importer that keeps state from one that
has settled all answers beforehand.  Under fixed answers an inquiry is its result and the list
of the paths it asks for, and reasoning about a check becomes reasoning about a function.
-/

namespace GoAtlas

abbrev Answers := String -> Answer

theorem ok_of_toOption {ε α : Type} {answer : Except ε α} {a : α}
    (h : answer.toOption = some a) : answer = .ok a := by
  cases answer with
  | error e => cases h
  | ok b =>
      cases h
      rfl

namespace Inquiry

variable {α β σ : Type}

def under (answers : Answers) : Inquiry String α -> α
  | done a => a
  | ask path next => (next (answers path)).under answers

def asked (answers : Answers) : Inquiry String α -> List String
  | done _ => []
  | ask path next => path :: (next (answers path)).asked answers

section Rules

variable (answers : Answers)

@[simp] theorem under_pure (a : α) : (pure a : Inquiry String α).under answers = a := rfl

@[simp] theorem asked_pure (a : α) : (pure a : Inquiry String α).asked answers = [] := rfl

@[simp] theorem under_bind (i : Inquiry String α) (f : α -> Inquiry String β) :
    (i >>= f).under answers = (f (i.under answers)).under answers := by
  induction i with
  | done a => rfl
  | ask path next ih => exact ih (answers path)

@[simp] theorem asked_bind (i : Inquiry String α) (f : α -> Inquiry String β) :
    (i >>= f).asked answers = i.asked answers ++ (f (i.under answers)).asked answers := by
  induction i with
  | done a => rfl
  | ask path next ih => exact congrArg (path :: ·) (ih (answers path))

end Rules

/-- Only the answers to what is asked for matter. -/
theorem under_congr (answers other : Answers) (i : Inquiry String α)
    (h : forall q, q ∈ i.asked answers -> other q = answers q) :
    i.under other = i.under answers ∧ i.asked other = i.asked answers := by
  induction i with
  | done a => exact ⟨rfl, rfl⟩
  | ask path next ih =>
      have hpath : other path = answers path := h path List.mem_cons_self
      have hnext := ih (answers path) fun q hq => h q (List.mem_cons_of_mem _ hq)
      constructor
      · show (next (other path)).under other = (next (answers path)).under answers
        rw [hpath, hnext.1]
      · show path :: (next (other path)).asked other = path :: (next (answers path)).asked answers
        rw [hpath, hnext.2]

theorem run_of_answers {answers : Answers} {importer : String -> σ -> Answer × σ}
    (h : forall q s, (importer q s).1 = answers q) (i : Inquiry String α) (s : σ) :
    (i.run importer s).1 = i.under answers := by
  induction i generalizing s with
  | done a => rfl
  | ask path next ih =>
      show ((next (importer path s).1).run importer (importer path s).2).1 = _
      rw [h path s]
      exact ih (answers path) _

/-!
# Asking once
-/

def Once (i : Inquiry String α) : Prop :=
  forall answers, (i.asked answers).Nodup

theorem Once.next {path : String} {next : Answer -> Inquiry String α} (h : Once (ask path next))
    (x : Answer) : Once (next x) ∧ forall answers, path ∉ (next x).asked answers := by
  have hboth : forall answers, path ∉ (next x).asked answers ∧ ((next x).asked answers).Nodup := by
    intro answers
    have hself : Function.update answers path x path = x := Function.update_self path x answers
    have hnodup := h (Function.update answers path x)
    rw [show (ask path next).asked (Function.update answers path x) =
      path :: (next (Function.update answers path x path)).asked
        (Function.update answers path x) from rfl, hself, List.nodup_cons] at hnodup
    have hcongr := under_congr (Function.update answers path x) answers (next x) (by
      intro q hq
      have hne : q ≠ path := fun heq => hnodup.1 (heq ▸ hq)
      exact (Function.update_of_ne hne x answers).symm)
    rw [hcongr.2]
    exact hnodup
  exact ⟨fun answers => (hboth answers).2, fun answers => (hboth answers).1⟩

theorem Once.of_asks {importer : String -> σ -> Answer × σ} {q : String} {t : σ}
    {i : Inquiry String α} {s : σ} (h : Once i) (hasks : Asks importer q t i s) :
    exists answers, q ∈ i.asked answers := by
  induction hasks with
  | now => exact ⟨fun q => .error (.packageNotFound q), List.mem_cons_self⟩
  | @later other next s _ ih =>
      rcases h.next (importer other s).1 with ⟨honce, hnew⟩
      rcases ih honce with ⟨answers, hq⟩
      refine ⟨Function.update answers other (importer other s).1, List.mem_cons_of_mem _ ?_⟩
      have hcongr := under_congr answers (Function.update answers other (importer other s).1)
        (next (importer other s).1) (by
          intro r hr
          have hne : r ≠ other := fun heq => hnew answers (heq ▸ hr)
          exact Function.update_of_ne hne _ answers)
      rw [Function.update_self, hcongr.2]
      exact hq

/-- A run is told the same as under some fixed answers, which may be anything where nothing is
asked. -/
theorem under_of_run (importer : String -> σ -> Answer × σ) (default : Answers)
    (i : Inquiry String α) (s : σ) (h : Once i) : exists answers,
      (i.run importer s).1 = i.under answers ∧
      (forall q, q ∈ i.asked answers ->
        exists t, Asks importer q t i s ∧ (importer q t).1 = answers q) ∧
      forall q, q ∉ i.asked answers -> answers q = default q := by
  induction i generalizing s with
  | done a => exact ⟨default, rfl, fun q hq => absurd hq List.not_mem_nil, fun _ _ => rfl⟩
  | ask path next ih =>
      rcases h.next (importer path s).1 with ⟨honce, hnew⟩
      rcases ih (importer path s).1 (importer path s).2 honce with ⟨answers, hrun, htold, hrest⟩
      have hself : Function.update answers path (importer path s).1 path = (importer path s).1 :=
        Function.update_self path _ answers
      have hother : forall q, q ≠ path ->
          Function.update answers path (importer path s).1 q = answers q :=
        fun q hne => Function.update_of_ne hne _ answers
      have hcongr := under_congr answers (Function.update answers path (importer path s).1)
        (next (importer path s).1) (by
          intro q hq
          exact hother q fun heq => hnew answers (heq ▸ hq))
      have hasked : (ask path next).asked (Function.update answers path (importer path s).1) =
          path :: (next (importer path s).1).asked answers := by
        show path :: (next (Function.update answers path (importer path s).1 path)).asked _ = _
        rw [hself, hcongr.2]
      refine ⟨Function.update answers path (importer path s).1, ?_, ?_, ?_⟩
      · show ((next (importer path s).1).run importer (importer path s).2).1 =
          (next (Function.update answers path (importer path s).1 path)).under _
        rw [hself, hcongr.1, hrun]
      · intro q hq
        rw [hasked] at hq
        by_cases heq : q = path
        · subst heq
          exact ⟨s, Asks.now, hself.symm⟩
        · rcases List.mem_cons.mp hq with hpath | hmem
          · exact absurd hpath heq
          · rcases htold q hmem with ⟨t, hasks, htold⟩
            exact ⟨t, Asks.later hasks, htold.trans (hother q heq).symm⟩
      · intro q hq
        rw [hasked, List.mem_cons, not_or] at hq
        rw [hother q hq.1]
        exact hrest q hq.2

end Inquiry
end GoAtlas
