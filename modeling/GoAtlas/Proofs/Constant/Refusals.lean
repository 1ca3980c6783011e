import GoAtlas.Proofs.Constant.Integers

/-!
# Refused operations

When an operation on two integer constants has no value: it means nothing, its result leaves the
range of constants, or it is one of three operations that are refused although their results are
small.
-/

namespace GoAtlas

/-- The operation means nothing with this second operand. -/
def BinaryOp.Undefined : BinaryOp -> Int -> Prop
  | .div, b | .rem, b => b = 0
  | .shiftLeft, b | .shiftRight, b => b < 0
  | _, _ => False

/-- Operations that are refused for the way in which they are computed: the remainder beside a
quotient that is too large, zero that is shifted by more bits than constants have, and a shift to
the right by a count that takes more than 32 bits. -/
inductive BinaryOp.Overcautious : BinaryOp -> Int -> Int -> Prop where
  | remainder : Overcautious .rem Constant.minInt (-1)
  | zeroShifted {b : Int} (h : 128 ≤ b) : Overcautious .shiftLeft 0 b
  | farShifted {a b : Int} (h : 2 ^ 32 ≤ b) : Overcautious .shiftRight a b

theorem BinaryOp.Gives.defined {op : BinaryOp} {a b c : Int} (h : op.Gives a b c) :
    ¬ op.Undefined b := by
  cases op with
  | div | rem => exact h.1
  | shiftLeft | shiftRight => exact Int.not_lt.mpr h.1
  | _ => exact id

namespace Constant

variable {a b : Int} {op : BinaryOp}

/-!
# Parts of operations
-/

theorem fits_of_checked_eq_error {v : Int} {cause : ConstantError}
    (h : checked op a b v = .error cause) : fits v = false := by
  unfold checked at h
  split at h
  · cases h
  · next hv => exact eq_false_of_ne_true hv

theorem shiftCount?_eq_error_iff :
    (exists cause, shiftCount? b = .error cause) ↔ b < 0 ∨ 2 ^ 32 ≤ b := by
  unfold shiftCount?
  split
  · next hb =>
      rw [Bool.and_eq_true, decide_eq_true_iff, decide_eq_true_iff] at hb
      exact ⟨fun ⟨_, h⟩ => (by cases h), fun h => (by omega)⟩
  · next hb =>
      rw [Bool.and_eq_true, decide_eq_true_iff, decide_eq_true_iff] at hb
      exact ⟨fun _ => (by omega), fun _ => ⟨_, rfl⟩⟩

theorem eq_zero_of_far_shift {count : Nat} (h : 128 ≤ count) (hfits : fits (a * 2 ^ count) = true) :
    a = 0 := by
  have hpow : (2 : Int) ^ 128 ≤ 2 ^ count := by
    exact_mod_cast Nat.pow_le_pow_right (by decide) h
  have hnonneg := Int.le_of_lt (two_pow_pos count)
  rw [fits_iff] at hfits
  unfold minInt maxInt at hfits
  rcases Int.lt_trichotomy a 0 with hneg | hzero | hpos
  · have hmul : a * 2 ^ count ≤ -1 * 2 ^ count :=
      Int.mul_le_mul_of_nonneg_right (Int.le_sub_one_of_lt hneg) hnonneg
    omega
  · exact hzero
  · have hmul : 1 * 2 ^ count ≤ a * 2 ^ count := Int.mul_le_mul_of_nonneg_right hpos hnonneg
    omega

/-- A far shift to the left loses everything or nothing. -/
theorem far_shift_refusal {count : Nat} (h : 128 ≤ count) :
    (exists c, BinaryOp.shiftLeft.Gives a count c ∧ fits c = false) ∨
      BinaryOp.shiftLeft.Overcautious a count := by
  by_cases hzero : a = 0
  · subst hzero
    exact Or.inr (.zeroShifted (by omega))
  · refine Or.inl ⟨a * 2 ^ count, ⟨by omega, by rw [Int.toNat_natCast]⟩, ?_⟩
    exact eq_false_of_ne_true fun hfits => hzero (eq_zero_of_far_shift h hfits)

/-!
# What is refused
-/

theorem shiftLeft_refusal {cause : ConstantError} (h : intOp .shiftLeft a b = .error cause) :
    BinaryOp.shiftLeft.Undefined b ∨
      (exists c, BinaryOp.shiftLeft.Gives a b c ∧ fits c = false) ∨
        BinaryOp.shiftLeft.Overcautious a b := by
  rw [intOp] at h
  cases hcount : shiftCount? b with
  | error cause =>
      rcases shiftCount?_eq_error_iff.mp ⟨cause, hcount⟩ with hneg | hlarge
      · exact Or.inl hneg
      · refine Or.inr ?_
        rw [← Int.toNat_of_nonneg (show 0 ≤ b by omega)]
        exact far_shift_refusal (by omega)
  | ok count =>
      obtain ⟨hnonneg, _, rfl⟩ := shiftCount?_eq_ok_iff.mp hcount
      rw [hcount] at h
      dsimp only [bind, Except.bind] at h
      split at h
      · refine Or.inr (Or.inl ⟨_, ⟨hnonneg, rfl⟩, ?_⟩)
        have hlost := fits_of_checked_eq_error h
        rwa [Nat.one_shiftLeft, Int.ofNat_eq_natCast, Int.natCast_pow, Int.cast_ofNat_Int] at hlost
      · next hlong =>
          refine Or.inr ?_
          rw [← Int.toNat_of_nonneg hnonneg]
          exact far_shift_refusal (Nat.le_of_not_lt hlong)

theorem shiftRight_refusal {cause : ConstantError} (h : intOp .shiftRight a b = .error cause) :
    BinaryOp.shiftRight.Undefined b ∨ BinaryOp.shiftRight.Overcautious a b := by
  rw [intOp] at h
  cases hcount : shiftCount? b with
  | error cause =>
      rcases shiftCount?_eq_error_iff.mp ⟨cause, hcount⟩ with hneg | hlarge
      · exact Or.inl hneg
      · exact Or.inr (.farShifted hlarge)
  | ok count =>
      rw [hcount] at h
      dsimp only [bind, Except.bind] at h
      split at h
      · cases h
      · cases h

theorem intOp_refusal {cause : ConstantError} (hop : op.isArithmetic = true)
    (h : intOp op a b = .error cause) :
    op.Undefined b ∨ (exists c, op.Gives a b c ∧ fits c = false) ∨ op.Overcautious a b := by
  cases op with
  | add | sub | mul => exact Or.inr (Or.inl ⟨_, rfl, fits_of_checked_eq_error h⟩)
  | div =>
      rw [intOp] at h
      split at h
      · next hzero => exact Or.inl (beq_iff_eq.mp hzero)
      · next hzero =>
          have hne : b ≠ 0 := fun hb => hzero (beq_iff_eq.mpr hb)
          exact Or.inr (Or.inl ⟨_, ⟨hne, rfl⟩, fits_of_checked_eq_error h⟩)
  | rem =>
      rw [intOp] at h
      split at h
      · next hzero => exact Or.inl (beq_iff_eq.mp hzero)
      · split at h
        · next hleast =>
            rw [Bool.and_eq_true, beq_iff_eq, beq_iff_eq] at hleast
            obtain ⟨rfl, rfl⟩ := hleast
            exact Or.inr (Or.inr .remainder)
        · cases h
  | shiftLeft => exact shiftLeft_refusal h
  | shiftRight => exact (shiftRight_refusal h).imp_right Or.inr
  | bitAnd | bitOr | bitXor | bitClear => cases h
  | _ => cases hop

theorem refused_of_overcautious (h : op.Overcautious a b) :
    exists cause, intOp op a b = .error cause := by
  cases h with
  | remainder => exact ⟨_, rfl⟩
  | zeroShifted hb =>
      rw [intOp]
      cases hcount : shiftCount? b with
      | error cause => exact ⟨cause, rfl⟩
      | ok count =>
          obtain ⟨_, _, rfl⟩ := shiftCount?_eq_ok_iff.mp hcount
          dsimp only [bind, Except.bind]
          rw [if_neg (by omega)]
          exact ⟨_, rfl⟩
  | farShifted hb =>
      obtain ⟨cause, hcause⟩ := shiftCount?_eq_error_iff.mpr (Or.inr hb)
      rw [intOp, hcause]
      exact ⟨cause, rfl⟩

theorem exists_result_of_overcautious (ha : fits a = true) (h : op.Overcautious a b) :
    exists c, op.Gives a b c ∧ fits c = true := by
  cases h with
  | remainder => exact ⟨0, ⟨by decide, by decide⟩, by decide⟩
  | zeroShifted hb => exact ⟨0, ⟨by omega, (Int.zero_mul _).symm⟩, by decide⟩
  | farShifted hb => exact ⟨_, ⟨by omega, rfl⟩, fits_fdiv_two_pow ha _⟩

/-- An operation on two integer constants is refused exactly if it means nothing, if its result is
no constant, or if it is one of the three kinds that are refused in spite of their results. -/
theorem binary_refused_iff (ha : fits a = true) (hb : fits b = true)
    (hop : op.isArithmetic = true) :
    ((exists cause, binary op (int a) (int b) = .error cause) ↔
      op.Undefined b ∨ (exists c, op.Gives a b c ∧ fits c = false) ∨ op.Overcautious a b) ∧
    (op.Overcautious a b -> exists c, op.Gives a b c ∧ fits c = true) := by
  refine ⟨⟨?_, ?_⟩, exists_result_of_overcautious ha⟩
  · rintro ⟨cause, h⟩
    exact intOp_refusal hop h
  · intro h
    cases hresult : binary op (int a) (int b) with
    | error cause => exact ⟨cause, rfl⟩
    | ok x =>
        -- A value is the result on unbounded integers, which is a constant.
        obtain ⟨c, _, hfits, hgives⟩ := intOp_exact ha hb hop hresult
        rcases h with hundefined | ⟨d, hd, hlost⟩ | hcautious
        · exact absurd hundefined hgives.defined
        · rw [hd.unique hgives, hfits] at hlost
          cases hlost
        · obtain ⟨cause, hcause⟩ := refused_of_overcautious hcautious
          cases hresult.symm.trans hcause

/-- The least constant has no quotient by minus one. -/
theorem binary_refused_iff_least :
    (fits minInt = true ∧ fits (-1) = true ∧ BinaryOp.div.isArithmetic = true) ∧
      exists cause, binary .div (int minInt) (int (-1)) = .error cause :=
  ⟨⟨by decide, by decide, rfl⟩, (binary_refused_iff (by decide) (by decide) rfl).1.mpr
    (Or.inr (Or.inl ⟨minInt.tdiv (-1), ⟨by decide, rfl⟩, by decide⟩))⟩

/-- Nothing is left over when the least constant is divided by minus one, and zero stays zero when
it is shifted, but either is refused as an overflow; and a far shift to the right, which leaves the
sign, is refused for its count. -/
theorem small_results_refused :
    fits 0 = true ∧
    (BinaryOp.rem.Gives minInt (-1) 0 ∧
      binary .rem (int minInt) (int (-1)) = .error (.overflow minInt .rem (-1))) ∧
    (BinaryOp.shiftLeft.Gives 0 128 0 ∧
      binary .shiftLeft (int 0) (int 128) = .error (.overflow 0 .shiftLeft 128)) ∧
    BinaryOp.shiftRight.Gives 1 4294967296 0 ∧
      binary .shiftRight (int 1) (int 4294967296) = .error (.shiftCount 4294967296) := by
  refine ⟨by decide, ⟨⟨by decide, by decide⟩, rfl⟩, ⟨⟨by decide, by decide⟩, rfl⟩,
    ⟨by decide, ?_⟩, rfl⟩
  rw [fdiv_of_long_shift (by decide) (by decide)]
  rfl

end Constant
end GoAtlas
