import GoAtlas.Proofs.Inquiry
import GoAtlas.Session

/-!
# Passes of a check

A pass of a check keeps a state of its own while the session answers its requests.  `Yields`
says of a pass that it keeps an invariant, leads from place to place by a relation that can be
chained, asks only for what it may, and ends with a given property of its result.  There is one
rule for each way in which passes are put together.
-/

namespace GoAtlas

namespace Session

abbrev LocalImporter := String -> Session -> Answer × Session

def Importer.inDir (importer : Importer) (dir : Path) : LocalImporter :=
  fun path => importer ⟨path, dir⟩

end Session

/-- The state of a pass and the session that answers its requests. -/
abbrev Place (σ : Type) := σ × Session

/-- What is expected of every step of a pass. -/
structure Course (σ : Type) where
  importer : Session.LocalImporter
  Holds : Place σ -> Prop
  Leads : Place σ -> Place σ -> Prop
  /-- What may be asked for, and when. -/
  May : String -> Session -> Prop
  refl : forall w, Leads w w
  trans : forall {u v w}, Leads u v -> Leads v w -> Leads u w

def Yields {σ α : Type} (c : Course σ) (m : StateT σ (Inquiry String) α) (w : Place σ)
    (Q : α -> Place σ -> Prop) : Prop :=
  c.Holds w -> (exists a v, (m.run w.1).run c.importer w.2 = ((a, v.1), v.2) ∧ c.Holds v ∧
    c.Leads w v ∧ Q a v) ∧
    forall q t, Inquiry.Asks c.importer q t (m.run w.1) w.2 -> c.May q t

namespace Yields

variable {σ α β : Type} {c : Course σ} {w : Place σ}

theorem of_holds {m : StateT σ (Inquiry String) α} {Q : α -> Place σ -> Prop}
    (h : c.Holds w -> Yields c m w Q) : Yields c m w Q :=
  fun hw => h hw hw

theorem pure {a : α} {Q : α -> Place σ -> Prop} (h : Q a w) :
    Yields c (Pure.pure a) w Q :=
  fun hw => ⟨⟨a, w, rfl, hw, c.refl w, h⟩, fun _ _ hasks => by cases hasks⟩

theorem bind {m : StateT σ (Inquiry String) α} {f : α -> StateT σ (Inquiry String) β}
    {P : α -> Place σ -> Prop} {Q : β -> Place σ -> Prop} (hm : Yields c m w P)
    (hf : forall a v, c.Leads w v -> P a v -> Yields c (f a) v Q) : Yields c (m >>= f) w Q := by
  intro hw
  rcases hm hw with ⟨⟨a, v, hrun, hv, hwv, ha⟩, hfirst⟩
  rcases hf a v hwv ha hv with ⟨⟨b, u, hrun', hu, hvu, hb⟩, hsecond⟩
  refine ⟨⟨b, u, ?_, hu, c.trans hwv hvu, hb⟩, ?_⟩
  · rw [StateT.run_bind, Inquiry.run_bind, hrun]
    exact hrun'
  · intro q t hasks
    rw [StateT.run_bind] at hasks
    rcases hasks.of_bind with hasks | hasks
    · exact hfirst q t hasks
    · rw [hrun] at hasks
      exact hsecond q t hasks

theorem mono {m : StateT σ (Inquiry String) α} {P Q : α -> Place σ -> Prop} (hm : Yields c m w P)
    (h : forall a v, c.Holds v -> c.Leads w v -> P a v -> Q a v) : Yields c m w Q := by
  intro hw
  rcases hm hw with ⟨⟨a, v, hrun, hv, hwv, ha⟩, hmay⟩
  exact ⟨⟨a, v, hrun, hv, hwv, h a v hv hwv ha⟩, hmay⟩

theorem map {m : StateT σ (Inquiry String) α} {f : α -> β} {Q : β -> Place σ -> Prop}
    (hm : Yields c m w fun a v => Q (f a) v) : Yields c (f <$> m) w Q := by
  rw [map_eq_pure_bind]
  exact hm.bind fun a v _ ha => pure ha

theorem get_bind {f : σ -> StateT σ (Inquiry String) β} {Q : β -> Place σ -> Prop}
    (h : Yields c (f w.1) w Q) : Yields c (get >>= f) w Q := h

theorem modify {f : σ -> σ} {Q : PUnit -> Place σ -> Prop}
    (hholds : c.Holds w -> c.Holds (f w.1, w.2)) (hleads : c.Leads w (f w.1, w.2))
    (hQ : Q ⟨⟩ (f w.1, w.2)) : Yields c (modify f) w Q :=
  fun hw => ⟨⟨⟨⟩, (f w.1, w.2), rfl, hholds hw, hleads, hQ⟩, fun _ _ hasks => by cases hasks⟩

theorem request {path : String} {Q : Answer -> Place σ -> Prop} (hmay : c.May path w.2)
    (h : c.Holds w -> c.Holds (w.1, (c.importer path w.2).2) ∧
      c.Leads w (w.1, (c.importer path w.2).2) ∧
      Q (c.importer path w.2).1 (w.1, (c.importer path w.2).2)) :
    Yields c (StateT.lift (Inquiry.request path)) w Q := by
  intro hw
  rcases h hw with ⟨hholds, hleads, hQ⟩
  refine ⟨⟨_, _, rfl, hholds, hleads, hQ⟩, ?_⟩
  intro q t hasks
  cases hasks with
  | now => exact hmay
  | later hasks => cases hasks

/-!
# Lists
-/

theorem forM {items : List α} {f : α -> StateT σ (Inquiry String) PUnit} {P : Place σ -> Prop}
    (hf : forall a v, a ∈ items -> P v -> Yields c (f a) v fun _ u => P u) (hw : P w) :
    Yields c (items.forM f) w fun _ u => P u := by
  induction items generalizing w with
  | nil => exact pure hw
  | cons a rest ih =>
      show Yields c (f a >>= fun _ => rest.forM f) w fun _ u => P u
      apply (hf a w List.mem_cons_self hw).bind
      intro _ v hwv hv
      exact ih (fun b u hb => hf b u (List.mem_cons_of_mem _ hb)) hv

theorem foldlM {items : List α} {f : β -> α -> StateT σ (Inquiry String) β}
    {P : β -> Place σ -> Prop}
    (hf : forall b a v, a ∈ items -> P b v -> Yields c (f b a) v P) {b : β} (hb : P b w) :
    Yields c (items.foldlM f b) w P := by
  induction items generalizing b w with
  | nil => exact pure hb
  | cons a rest ih =>
      rw [List.foldlM_cons]
      apply (hf b a w List.mem_cons_self hb).bind
      intro b' v _ hv
      exact ih (fun b a u ha => hf b a u (List.mem_cons_of_mem _ ha)) hv

theorem mapM {items : List α} {f : α -> StateT σ (Inquiry String) β} {P : α -> β -> Place σ -> Prop}
    (hP : forall a b v u, c.Leads v u -> P a b v -> P a b u)
    (hf : forall a v, a ∈ items -> c.Leads w v -> Yields c (f a) v (P a)) :
    Yields c (items.mapM f) w fun bs u =>
      (forall b, b ∈ bs -> exists a, a ∈ items ∧ P a b u) ∧
        forall a, a ∈ items -> exists b, b ∈ bs ∧ P a b u := by
  induction items generalizing w with
  | nil => exact pure ⟨fun _ hb => absurd hb List.not_mem_nil,
      fun _ ha => absurd ha List.not_mem_nil⟩
  | cons a rest ih =>
      rw [List.mapM_cons]
      apply (hf a w List.mem_cons_self (c.refl w)).bind
      intro b v hwv hb
      apply (ih fun a u ha hvu => hf a u (List.mem_cons_of_mem _ ha) (c.trans hwv hvu)).bind
      rintro bs u hvu ⟨hbs, hrest⟩
      refine pure ⟨?_, ?_⟩
      · intro b' hb'
        rcases List.mem_cons.mp hb' with rfl | hmem
        · exact ⟨a, List.mem_cons_self, hP a b' v u hvu hb⟩
        · rcases hbs b' hmem with ⟨a', ha', hP'⟩
          exact ⟨a', List.mem_cons_of_mem _ ha', hP'⟩
      · intro a' ha'
        rcases List.mem_cons.mp ha' with rfl | hmem
        · exact ⟨b, List.mem_cons_self, hP a' b v u hvu hb⟩
        · rcases hrest a' hmem with ⟨b', hb', hP'⟩
          exact ⟨b', List.mem_cons_of_mem _ hb', hP'⟩

end Yields

/-!
# Evaluation
-/

def Evaluates {σ ε α : Type} (c : Course σ) (m : ExceptT ε (StateT σ (Inquiry String)) α)
    (w : Place σ) (Q : α -> Place σ -> Prop) : Prop :=
  Yields c m.run w fun r v => forall a, r = .ok a -> Q a v

namespace Evaluates

variable {σ ε α β : Type} {c : Course σ} {w : Place σ}

theorem pure {a : α} {Q : α -> Place σ -> Prop} (h : Q a w) :
    Evaluates c (Pure.pure a : ExceptT ε (StateT σ (Inquiry String)) α) w Q := by
  apply Yields.pure
  intro b hb
  cases hb
  exact h

theorem throw {e : ε} {Q : α -> Place σ -> Prop} :
    Evaluates c (MonadExceptOf.throw e : ExceptT ε (StateT σ (Inquiry String)) α) w Q := by
  apply Yields.pure
  intro b hb
  cases hb

theorem bind {m : ExceptT ε (StateT σ (Inquiry String)) α}
    {f : α -> ExceptT ε (StateT σ (Inquiry String)) β}
    {P : α -> Place σ -> Prop} {Q : β -> Place σ -> Prop} (hm : Evaluates c m w P)
    (hf : forall a v, c.Leads w v -> P a v -> Evaluates c (f a) v Q) :
    Evaluates c (m >>= f) w Q := by
  refine Yields.bind hm ?_
  intro r v hwv hr
  cases r with
  | ok a => exact hf a v hwv (hr a rfl)
  | error e =>
      apply Yields.pure
      intro b hb
      cases hb

theorem lift {m : StateT σ (Inquiry String) α} {Q : α -> Place σ -> Prop} (hm : Yields c m w Q) :
    Evaluates c (ExceptT.lift m : ExceptT ε (StateT σ (Inquiry String)) α) w Q := by
  refine Yields.map (hm.mono ?_)
  intro a v _ _ ha b hb
  cases hb
  exact ha

end Evaluates
end GoAtlas
