import GoAtlas.Check.Inquiry

/-!
# Running inquiries

A run of an inquiry is a chain of answers of the importer.  What holds between the states
before and after every answer, and can be chained, holds between the ends of the run.
-/

namespace GoAtlas
namespace Inquiry

variable {ρ α β σ : Type}

theorem run_andThen (importer : ρ -> σ -> Answer × σ) (i : Inquiry ρ α)
    (f : α -> Inquiry ρ β) (s : σ) :
    (i.andThen f).run importer s = (f (i.run importer s).1).run importer (i.run importer s).2 := by
  induction i generalizing s with
  | done a => rfl
  | ask q next ih => exact ih _ _

@[simp] theorem run_bind (importer : ρ -> σ -> Answer × σ) (i : Inquiry ρ α)
    (f : α -> Inquiry ρ β) (s : σ) :
    (i >>= f).run importer s = (f (i.run importer s).1).run importer (i.run importer s).2 :=
  run_andThen importer i f s

theorem andThen_done (i : Inquiry ρ α) : i.andThen done = i := by
  induction i with
  | done a => rfl
  | ask q next ih => exact congrArg (ask q) (funext ih)

theorem andThen_assoc {γ : Type} (i : Inquiry ρ α) (f : α -> Inquiry ρ β) (g : β -> Inquiry ρ γ) :
    (i.andThen f).andThen g = i.andThen fun a => (f a).andThen g := by
  induction i with
  | done a => rfl
  | ask q next ih => exact congrArg (ask q) (funext ih)

instance : LawfulMonad (Inquiry ρ) :=
  LawfulMonad.mk' (Inquiry ρ) andThen_done (fun _ _ => rfl) andThen_assoc

theorem run_rel {R : σ -> σ -> Prop} (hrefl : forall s, R s s)
    (htrans : forall s t u, R s t -> R t u -> R s u)
    {importer : ρ -> σ -> Answer × σ} (himporter : forall q s, R s (importer q s).2)
    (i : Inquiry ρ α) (s : σ) : R s (i.run importer s).2 := by
  induction i generalizing s with
  | done a => exact hrefl s
  | ask q next ih => exact htrans _ _ _ (himporter q s) (ih _ _)

/-- Importers that agree wherever the run can get to lead to the same result. -/
theorem run_congr {P : σ -> Prop} {importer other : ρ -> σ -> Answer × σ}
    (hkeep : forall q s, P s -> P (importer q s).2)
    (heq : forall q s, P s -> importer q s = other q s) (i : Inquiry ρ α) {s : σ}
    (hs : P s) : i.run importer s = i.run other s := by
  induction i generalizing s with
  | done a => rfl
  | ask q next ih =>
      show (next (importer q s).1).run importer (importer q s).2 =
        (next (other q s).1).run other (other q s).2
      rw [← heq q s hs]
      exact ih _ (hkeep q s hs)

/-!
# Requests of a run
-/

/-- The inquiry, run from `s`, comes to make the request `q` in the state `t`. -/
inductive Asks (importer : ρ -> σ -> Answer × σ) (q : ρ) (t : σ) :
    Inquiry ρ α -> σ -> Prop where
  | now {next : Answer -> Inquiry ρ α} : Asks importer q t (ask q next) t
  | later {other : ρ} {next : Answer -> Inquiry ρ α} {s : σ}
      (h : Asks importer q t (next (importer other s).1) (importer other s).2) :
      Asks importer q t (ask other next) s

theorem Asks.of_bind {importer : ρ -> σ -> Answer × σ} {q : ρ} {t : σ}
    {i : Inquiry ρ α} {f : α -> Inquiry ρ β} {s : σ} (h : Asks importer q t (i >>= f) s) :
    Asks importer q t i s ∨
      Asks importer q t (f (i.run importer s).1) (i.run importer s).2 := by
  induction i generalizing s with
  | done a => exact Or.inr h
  | ask other next ih =>
      cases h with
      | now => exact Or.inl Asks.now
      | later h => exact (ih _ h).imp_left Asks.later

theorem run_keeps {P : σ -> Prop} {importer : ρ -> σ -> Answer × σ} {i : Inquiry ρ α} {s : σ}
    (h : forall q t, Asks importer q t i s -> P t -> P (importer q t).2) (hs : P s) :
    P (i.run importer s).2 := by
  induction i generalizing s with
  | done a => exact hs
  | ask q next ih =>
      exact ih _ (fun q t hasks => h q t (Asks.later hasks)) (h q s Asks.now hs)

section Requests

variable {R : σ -> σ -> Prop} {importer : ρ -> σ -> Answer × σ} {q : ρ}
  {i : Inquiry ρ α} {s t : σ}

/-- What the steps of a run preserve holds up to each of its requests. -/
theorem Asks.rel (h : Asks importer q t i s) (hrefl : forall s, R s s)
    (htrans : forall s t u, R s t -> R t u -> R s u)
    (himporter : forall q s, R s (importer q s).2) : R s t := by
  induction h with
  | now => exact hrefl t
  | later _ ih => exact htrans _ _ _ (himporter _ _) ih

theorem Asks.rel_end (h : Asks importer q t i s) (hrefl : forall s, R s s)
    (htrans : forall s t u, R s t -> R t u -> R s u)
    (himporter : forall q s, R s (importer q s).2) :
    R (importer q t).2 (i.run importer s).2 := by
  induction h with
  | now => exact run_rel hrefl htrans himporter _ _
  | later _ ih => exact ih

end Requests

/-!
# Requests in other terms
-/

/-- The importer has the requests put in its own terms. -/
theorem run_mapRequests {ρ' : Type} (f : ρ' -> ρ) (importer : ρ -> σ -> Answer × σ)
    (i : Inquiry ρ' α) (s : σ) :
    (i.mapRequests f).run importer s = i.run (fun q => importer (f q)) s := by
  induction i generalizing s with
  | done a => rfl
  | ask q next ih => exact ih _ _

end Inquiry
end GoAtlas
