import GoAtlas.Proofs.Check.ExpressionTracks

/-!
# Passes that may fail

A pass that evaluates has a value or a reason why there is none.  What it comes to follows from
what its parts come to, and a conversion comes to what the structure behind the type allows.
-/

namespace GoAtlas
namespace Scope

section Parts

variable {answers : Answers} {p : Progress}

theorem ok_of_bind {α β : Type} {F : Evaluate α} {G : α -> Evaluate β} {c : β}
    (h : ((F >>= G).run.outcome answers p).1 = .ok c) :
    exists a, (F.run.outcome answers p).1 = .ok a ∧
      ((G a).run.outcome answers (F.run.outcome answers p).2).1 = .ok c := by
  have hbind : (F >>= G).run.outcome answers p =
      (ExceptT.bindCont G (F.run.outcome answers p).1).outcome answers
        (F.run.outcome answers p).2 := Resolve.outcome_bind answers F.run (ExceptT.bindCont G) p
  rw [hbind] at h
  cases hF : (F.run.outcome answers p).1 with
  | ok a =>
      rw [hF] at h
      exact ⟨a, rfl, h⟩
  | error cause =>
      rw [hF] at h
      cases h

theorem outcome_bind_of_ok {α β : Type} {F : Evaluate α} {G : α -> Evaluate β} {a : α}
    (h : (F.run.outcome answers p).1 = .ok a) :
    (F >>= G).run.outcome answers p = (G a).run.outcome answers (F.run.outcome answers p).2 := by
  have hbind : (F >>= G).run.outcome answers p =
      (ExceptT.bindCont G (F.run.outcome answers p).1).outcome answers
        (F.run.outcome answers p).2 := Resolve.outcome_bind answers F.run (ExceptT.bindCont G) p
  rw [hbind, h]
  rfl

theorem outcome_lift (answers : Answers) {α : Type} (m : Resolve α) (p : Progress) :
    (monadLift m : Evaluate α).run.outcome answers p =
      (.ok (m.outcome answers p).1, (m.outcome answers p).2) := by
  show (Except.ok <$> m : Resolve (Except EvalError α)).outcome answers p = _
  rw [map_eq_pure_bind, Resolve.outcome_bind]
  rfl

theorem ok_of_lift {α : Type} {m : Resolve α} {c : α}
    (h : ((monadLift m : Evaluate α).run.outcome answers p).1 = .ok c) :
    (m.outcome answers p).1 = c := by
  rw [outcome_lift] at h
  exact Except.ok.inj h

end Parts

/-!
# Conversions
-/

section Conversions

variable {sc : Scope} {answers : Answers} {links : Links} {p : Progress} {value w : Constant}
  {type : GoType} {kind : BasicKind} {z : Valued}

def Converts (sc : Scope) (answers : Answers) (links : Links) (p : Progress) (value : Constant)
    (type : GoType) (z : Valued) : Prop :=
  ((sc.convertTo links value type).run.outcome answers p).1 = .ok z

def converted (value : Constant) (type : GoType) : GoType -> Except EvalError Valued
  | .basic .invalid => .ok (value, type)
  | .basic kind =>
      match value.convert kind with
      | .ok v => .ok (v, type)
      | .error cause => .error (.arithmetic cause)
  | other => .error (.wrongShape type other)

theorem converted_basic (hkind : kind ≠ .invalid) : converted value type (.basic kind) =
    match value.convert kind with
    | .ok v => .ok (v, type)
    | .error cause => .error (.arithmetic cause) := by
  cases kind with
  | invalid => exact absurd rfl hkind
  | _ => rfl

theorem outcome_convertTo (hvalid : type.isInvalid = false) (value : Constant) :
    ((sc.convertTo links value type).run.outcome answers p).1 =
      converted value type ((sc.underlying links type).outcome answers p).1 := by
  have hlift := congrArg Prod.fst (outcome_lift answers (sc.underlying links type) p)
  unfold convertTo
  rw [hvalid, if_neg Bool.false_ne_true, outcome_bind_of_ok hlift]
  generalize ((sc.underlying links type).outcome answers p).1 = shape
  split
  · rfl
  · next kind hkind =>
      rw [converted_basic hkind]
      cases value.convert kind with
      | ok w => rfl
      | error cause => rfl
  · next hinvalid hbasic =>
      unfold converted
      split
      · exact (hinvalid rfl).elim
      · exact (hbasic _ rfl).elim
      · rfl

def Unknown (sc : Scope) (answers : Answers) (links : Links) (p : Progress) (type : GoType) :
    Prop :=
  type.isInvalid = true ∨ ((sc.underlying links type).outcome answers p).1 = .basic .invalid

theorem converts_of_unknown (h : sc.Unknown answers links p type) (value : Constant) :
    sc.Converts answers links p value type (value, type) := by
  unfold Converts
  cases hinvalid : type.isInvalid with
  | true =>
      unfold convertTo
      rw [hinvalid, if_pos rfl]
      rfl
  | false =>
      rcases h with hinvalid' | hshape
      · cases hinvalid.symm.trans hinvalid'
      · rw [outcome_convertTo hinvalid, hshape]
        rfl

theorem converts_of_convert (hvalid : type.isInvalid = false) (hkind : kind ≠ .invalid)
    (hshape : ((sc.underlying links type).outcome answers p).1 = .basic kind)
    (h : value.convert kind = .ok w) : sc.Converts answers links p value type (w, type) := by
  unfold Converts
  rw [outcome_convertTo hvalid, hshape, converted_basic hkind, h]

/-- What converts to a type is of the kind behind it, or that is not known. -/
theorem Converts.unknown_or_convert (h : sc.Converts answers links p value type z) :
    sc.Unknown answers links p type ∧ z = (value, type) ∨
      exists kind w, type.isInvalid = false ∧ kind ≠ .invalid ∧
        ((sc.underlying links type).outcome answers p).1 = .basic kind ∧
          value.convert kind = .ok w ∧ z = (w, type) := by
  unfold Converts at h
  cases hinvalid : type.isInvalid with
  | true =>
      unfold convertTo at h
      rw [hinvalid, if_pos rfl] at h
      cases h
      exact Or.inl ⟨Or.inl hinvalid, rfl⟩
  | false =>
      rw [outcome_convertTo hinvalid] at h
      unfold converted at h
      split at h
      · next hshape =>
          cases h
          exact Or.inl ⟨Or.inr hshape, rfl⟩
      · next kind hkind hshape =>
          split at h
          · next w hw =>
              cases h
              exact Or.inr ⟨kind, w, rfl, hkind, hshape, hw, rfl⟩
          · cases h
      · cases h

end Conversions
end Scope
end GoAtlas
