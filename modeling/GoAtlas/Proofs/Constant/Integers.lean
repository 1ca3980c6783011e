import GoAtlas.Constant.Arithmetic
import Mathlib.Data.Int.Bitwise

/-!
# Integer arithmetic

What the operators mean on unbounded integers.  An operation on integer constants computes just
that: where the result is no integer of 128 bits, there is none.
-/

namespace GoAtlas

/-!
# What operators mean
-/

/-- What an operator makes of two unbounded integers.  A quotient is truncated, a remainder has the
sign of the dividend, a negative integer has infinitely many leading ones, a shift multiplies or
divides by a power of two and rounds down. -/
def BinaryOp.Gives : BinaryOp -> Int -> Int -> Int -> Prop
  | .add, a, b, c => c = a + b
  | .sub, a, b, c => c = a - b
  | .mul, a, b, c => c = a * b
  | .div, a, b, c => b ≠ 0 ∧ c = a.tdiv b
  | .rem, a, b, c => b ≠ 0 ∧ c = a.tmod b
  | .bitAnd, a, b, c => forall i, c.testBit i = (a.testBit i && b.testBit i)
  | .bitOr, a, b, c => forall i, c.testBit i = (a.testBit i || b.testBit i)
  | .bitXor, a, b, c => forall i, c.testBit i = (a.testBit i ^^ b.testBit i)
  | .bitClear, a, b, c => forall i, c.testBit i = (a.testBit i && !b.testBit i)
  | .shiftLeft, a, b, c => 0 ≤ b ∧ c = a * 2 ^ b.toNat
  | .shiftRight, a, b, c => 0 ≤ b ∧ c = a.fdiv (2 ^ b.toNat)
  | _, _, _, _ => False

def UnaryOp.Gives : UnaryOp -> Int -> Int -> Prop
  | .plus, a, c => c = a
  | .minus, a, c => c = -a
  | .complement, a, c => c = -a - 1
  | _, _, _ => False

def BinaryOp.isArithmetic : BinaryOp -> Bool
  | .add | .sub | .mul | .div | .rem | .bitAnd | .bitOr | .bitXor | .bitClear | .shiftLeft
  | .shiftRight => true
  | _ => false

def UnaryOp.isArithmetic : UnaryOp -> Bool
  | .plus | .minus | .complement => true
  | _ => false

theorem exists_testBit_zero (m n : Nat) :
    exists i, m.testBit i = false ∧ n.testBit i = false := by
  refine ⟨m + n, Nat.testBit_lt_two_pow ?_, Nat.testBit_lt_two_pow ?_⟩
  · exact Nat.lt_of_le_of_lt (Nat.le_add_right m n) Nat.lt_two_pow_self
  · exact Nat.lt_of_le_of_lt (Nat.le_add_left n m) Nat.lt_two_pow_self

theorem int_eq_of_testBit {a b : Int} (h : forall i, a.testBit i = b.testBit i) : a = b := by
  match a, b with
  | .ofNat m, .ofNat n => exact congrArg Int.ofNat (Nat.eq_of_testBit_eq h)
  | .negSucc m, .negSucc n =>
      refine congrArg Int.negSucc (Nat.eq_of_testBit_eq fun i => ?_)
      have hbit : (!m.testBit i) = !n.testBit i := h i
      exact Bool.not_inj hbit
  | .ofNat m, .negSucc n =>
      obtain ⟨i, hm, hn⟩ := exists_testBit_zero m n
      have hbit : m.testBit i = !n.testBit i := h i
      rw [hm, hn] at hbit
      cases hbit
  | .negSucc m, .ofNat n =>
      obtain ⟨i, hm, hn⟩ := exists_testBit_zero m n
      have hbit : (!m.testBit i) = n.testBit i := h i
      rw [hm, hn] at hbit
      cases hbit

theorem BinaryOp.Gives.unique {op : BinaryOp} {a b c d : Int} (h : op.Gives a b c)
    (h' : op.Gives a b d) : c = d := by
  cases op with
  | add | sub | mul => exact h.trans (Eq.symm h')
  | div | rem | shiftLeft | shiftRight => exact h.2.trans h'.2.symm
  | bitAnd | bitOr | bitXor | bitClear => exact int_eq_of_testBit fun i => (h i).trans (h' i).symm
  | _ => exact absurd h id

theorem UnaryOp.Gives.unique {op : UnaryOp} {a c d : Int} (h : op.Gives a c) (h' : op.Gives a d) :
    c = d := by
  cases op with
  | plus | minus | complement => exact h.trans (Eq.symm h')
  | _ => exact absurd h id

namespace Constant

/-!
# The range of constants
-/

theorem fits_iff {v : Int} : fits v = true ↔ minInt ≤ v ∧ v ≤ maxInt := by
  unfold fits
  rw [Bool.and_eq_true, decide_eq_true_iff, decide_eq_true_iff]

theorem fits_ofNat_iff {n : Nat} : fits (Int.ofNat n) = true ↔ n < 2 ^ 127 := by
  rw [fits_iff, minInt, maxInt, Int.ofNat_eq_natCast]
  omega

theorem fits_negSucc_iff {n : Nat} : fits (Int.negSucc n) = true ↔ n < 2 ^ 127 := by
  rw [fits_iff, minInt, maxInt, Int.negSucc_eq]
  omega

theorem fits_of_between {a v : Int} (h : fits a = true) (hv : 0 ≤ v ∧ v ≤ a ∨ a ≤ v ∧ v ≤ 0) :
    fits v = true := by
  rw [fits_iff] at h ⊢
  unfold minInt maxInt at h ⊢
  omega

/-!
# Bits
-/

@[simp] theorem testBit_complement (a : Int) (i : Nat) :
    (complement a).testBit i = !a.testBit i := by
  cases a with
  | ofNat n => rfl
  | negSucc n => exact (Bool.not_not _).symm

theorem complement_eq (a : Int) : complement a = -a - 1 := by
  cases a with
  | ofNat n =>
      show Int.negSucc n = _
      rw [Int.negSucc_eq, Int.ofNat_eq_natCast]
      omega
  | negSucc n =>
      show Int.ofNat n = _
      rw [Int.negSucc_eq, Int.ofNat_eq_natCast]
      omega

theorem fits_complement {a : Int} : fits (complement a) = fits a := by
  rw [Bool.eq_iff_iff, fits_iff, fits_iff, complement_eq]
  unfold minInt maxInt
  omega

theorem testBit_natAndNot (m n i : Nat) :
    (natAndNot m n).testBit i = (m.testBit i && !n.testBit i) := by
  unfold natAndNot
  rw [Nat.testBit_xor, Nat.testBit_and]
  cases m.testBit i with
  | true => exact Bool.true_xor _
  | false => rfl

theorem natAndNot_lt {m : Nat} (n : Nat) {k : Nat} (h : m < 2 ^ k) : natAndNot m n < 2 ^ k :=
  Nat.xor_lt_two_pow h (Nat.lt_of_le_of_lt Nat.and_le_left h)

theorem testBit_bitAnd (a b : Int) (i : Nat) :
    (bitAnd a b).testBit i = (a.testBit i && b.testBit i) := by
  cases a with
  | ofNat m =>
      cases b with
      | ofNat n => exact Nat.testBit_and m n i
      | negSucc n => exact testBit_natAndNot m n i
  | negSucc m =>
      cases b with
      | ofNat n => exact (testBit_natAndNot n m i).trans (Bool.and_comm _ _)
      | negSucc n =>
          show (!(m ||| n).testBit i) = (!m.testBit i && !n.testBit i)
          rw [Nat.testBit_or, Bool.not_or]

theorem fits_bitAnd {a b : Int} (ha : fits a = true) (hb : fits b = true) :
    fits (bitAnd a b) = true := by
  cases a with
  | ofNat m =>
      have hm := fits_ofNat_iff.mp ha
      cases b with
      | ofNat n => exact fits_ofNat_iff.mpr (Nat.lt_of_le_of_lt Nat.and_le_left hm)
      | negSucc n => exact fits_ofNat_iff.mpr (natAndNot_lt n hm)
  | negSucc m =>
      have hm := fits_negSucc_iff.mp ha
      cases b with
      | ofNat n => exact fits_ofNat_iff.mpr (natAndNot_lt m (fits_ofNat_iff.mp hb))
      | negSucc n =>
          exact fits_negSucc_iff.mpr (Nat.or_lt_two_pow hm (fits_negSucc_iff.mp hb))

theorem testBit_bitOr (a b : Int) (i : Nat) :
    (bitOr a b).testBit i = (a.testBit i || b.testBit i) := by
  unfold bitOr
  rw [testBit_complement, testBit_bitAnd, testBit_complement, testBit_complement, Bool.not_and,
    Bool.not_not, Bool.not_not]

theorem fits_bitOr {a b : Int} (ha : fits a = true) (hb : fits b = true) :
    fits (bitOr a b) = true := by
  unfold bitOr
  rw [fits_complement]
  exact fits_bitAnd (fits_complement.trans ha) (fits_complement.trans hb)

theorem testBit_bitXor (a b : Int) (i : Nat) :
    (bitXor a b).testBit i = (a.testBit i ^^ b.testBit i) := by
  cases a with
  | ofNat m =>
      cases b with
      | ofNat n => exact Nat.testBit_xor m n i
      | negSucc n => exact (congrArg not (Nat.testBit_xor m n i)).trans (Bool.xor_not _ _).symm
  | negSucc m =>
      cases b with
      | ofNat n => exact (congrArg not (Nat.testBit_xor m n i)).trans (Bool.not_xor _ _).symm
      | negSucc n => exact (Nat.testBit_xor m n i).trans (Bool.not_xor_not _ _).symm

theorem fits_bitXor {a b : Int} (ha : fits a = true) (hb : fits b = true) :
    fits (bitXor a b) = true := by
  cases a with
  | ofNat m =>
      have hm := fits_ofNat_iff.mp ha
      cases b with
      | ofNat n => exact fits_ofNat_iff.mpr (Nat.xor_lt_two_pow hm (fits_ofNat_iff.mp hb))
      | negSucc n => exact fits_negSucc_iff.mpr (Nat.xor_lt_two_pow hm (fits_negSucc_iff.mp hb))
  | negSucc m =>
      have hm := fits_negSucc_iff.mp ha
      cases b with
      | ofNat n => exact fits_negSucc_iff.mpr (Nat.xor_lt_two_pow hm (fits_ofNat_iff.mp hb))
      | negSucc n => exact fits_ofNat_iff.mpr (Nat.xor_lt_two_pow hm (fits_negSucc_iff.mp hb))

/-!
# Operations
-/

variable {a b : Int} {x : Constant}

theorem checked_eq_ok_iff {op : BinaryOp} {v : Int} :
    checked op a b v = .ok x ↔ fits v = true ∧ x = int v := by
  unfold checked
  split
  · next hv =>
      rw [Except.ok.injEq, eq_comm]
      exact (and_iff_right hv).symm
  · next hv => exact ⟨fun h => (by cases h), fun h => absurd h.1 hv⟩

theorem shiftCount?_eq_ok_iff {count : Nat} :
    shiftCount? b = .ok count ↔ 0 ≤ b ∧ b < 4294967296 ∧ count = b.toNat := by
  unfold shiftCount?
  split
  · next hb =>
      rw [Bool.and_eq_true, decide_eq_true_iff, decide_eq_true_iff] at hb
      rw [Except.ok.injEq, eq_comm]
      exact ⟨fun h => ⟨hb.1, hb.2, h⟩, fun h => h.2.2⟩
  · next hb =>
      refine ⟨fun h => (by cases h), fun h => absurd ?_ hb⟩
      rw [Bool.and_eq_true, decide_eq_true_iff, decide_eq_true_iff]
      exact ⟨h.1, h.2.1⟩

theorem fits_tmod (ha : fits a = true) : fits (a.tmod b) = true := by
  refine fits_of_between ha ?_
  have hle : (a.tmod b).natAbs ≤ a.natAbs := by
    rw [Int.natAbs_tmod]
    exact Nat.mod_le _ _
  rcases Int.le_total 0 a with hnonneg | hneg
  · have hmod := Int.tmod_nonneg b hnonneg
    omega
  · have hmod : 0 ≤ (-a).tmod b := Int.tmod_nonneg b (Int.neg_nonneg_of_nonpos hneg)
    rw [Int.neg_tmod] at hmod
    omega

theorem two_pow_pos (count : Nat) : (0 : Int) < 2 ^ count :=
  Int.pow_pos (by decide)

theorem fdiv_two_pow (a : Int) (count : Nat) : a.fdiv (2 ^ count) = a / 2 ^ count :=
  Int.fdiv_eq_ediv_of_nonneg a (Int.le_of_lt (two_pow_pos count))

theorem shiftRight_eq (a : Int) (count : Nat) : a >>> count = a.fdiv (2 ^ count) := by
  rw [Int.shiftRight_eq_div_pow, fdiv_two_pow, Int.natCast_pow, Int.cast_ofNat_Int]

theorem fdiv_of_long_shift (ha : fits a = true) {count : Nat} (h : 128 ≤ count) :
    a.fdiv (2 ^ count) = if a < 0 then -1 else 0 := by
  have hpow : (2 : Int) ^ 128 ≤ 2 ^ count := by
    exact_mod_cast Nat.pow_le_pow_right (by decide) h
  rw [fits_iff] at ha
  unfold minInt maxInt at ha
  rw [fdiv_two_pow]
  split
  · exact Int.ediv_eq_neg_one_of_neg_of_le (by omega) (by omega)
  · exact Int.ediv_eq_zero_of_lt (by omega) (by omega)

theorem fits_fdiv_two_pow (ha : fits a = true) (count : Nat) :
    fits (a.fdiv (2 ^ count)) = true := by
  rw [fdiv_two_pow]
  refine fits_of_between ha ?_
  rcases Int.lt_or_le a 0 with hneg | hnonneg
  · have hmul : a * 2 ^ count ≤ a * 1 :=
      Int.mul_le_mul_of_nonpos_left (Int.le_of_lt hneg) (two_pow_pos count)
    refine Or.inr ⟨?_, ?_⟩
    · exact Int.le_ediv_of_mul_le (two_pow_pos count) (hmul.trans_eq (Int.mul_one a))
    · exact Int.le_of_lt (Int.ediv_neg_of_neg_of_pos hneg (two_pow_pos count))
  · refine Or.inl ⟨?_, ?_⟩
    · exact Int.ediv_nonneg hnonneg (Int.le_of_lt (two_pow_pos count))
    · exact Int.ediv_le_self _ hnonneg

theorem shiftLeft_exact (h : intOp .shiftLeft a b = .ok x) :
    exists c, x = int c ∧ fits c = true ∧ BinaryOp.shiftLeft.Gives a b c := by
  cases hcount : shiftCount? b with
  | error cause =>
      rw [intOp, hcount] at h
      cases h
  | ok count =>
      rw [intOp, hcount] at h
      obtain ⟨hnonneg, _, rfl⟩ := shiftCount?_eq_ok_iff.mp hcount
      dsimp only [bind, Except.bind] at h
      split at h
      · obtain ⟨hfits, rfl⟩ := checked_eq_ok_iff.mp h
        refine ⟨_, rfl, hfits, hnonneg, ?_⟩
        rw [Nat.one_shiftLeft, Int.ofNat_eq_natCast, Int.natCast_pow, Int.cast_ofNat_Int]
      · cases h

theorem shiftRight_exact (ha : fits a = true) (h : intOp .shiftRight a b = .ok x) :
    exists c, x = int c ∧ fits c = true ∧ BinaryOp.shiftRight.Gives a b c := by
  cases hcount : shiftCount? b with
  | error cause =>
      rw [intOp, hcount] at h
      cases h
  | ok count =>
      rw [intOp, hcount] at h
      obtain ⟨hnonneg, _, rfl⟩ := shiftCount?_eq_ok_iff.mp hcount
      refine ⟨a.fdiv (2 ^ b.toNat), ?_, fits_fdiv_two_pow ha _, hnonneg, rfl⟩
      dsimp only [bind, Except.bind] at h
      split at h
      · cases h
        rw [shiftRight_eq]
      · next hlong =>
          cases h
          rw [fdiv_of_long_shift ha (Nat.le_of_not_lt hlong)]

/-- An operation that has a result has the one on unbounded integers. -/
theorem intOp_exact {op : BinaryOp} (ha : fits a = true) (hb : fits b = true)
    (hop : op.isArithmetic = true) (h : intOp op a b = .ok x) :
    exists c, x = int c ∧ fits c = true ∧ op.Gives a b c := by
  cases op with
  | add | sub | mul =>
      obtain ⟨hfits, rfl⟩ := checked_eq_ok_iff.mp h
      exact ⟨_, rfl, hfits, rfl⟩
  | div =>
      rw [intOp] at h
      split at h
      · cases h
      · next hzero =>
          obtain ⟨hfits, rfl⟩ := checked_eq_ok_iff.mp h
          exact ⟨_, rfl, hfits, fun hb => hzero (beq_iff_eq.mpr hb), rfl⟩
  | rem =>
      rw [intOp] at h
      split at h
      · cases h
      · next hzero =>
          split at h
          · cases h
          · cases h
            exact ⟨_, rfl, fits_tmod ha, fun hb => hzero (beq_iff_eq.mpr hb), rfl⟩
  | bitAnd =>
      cases h
      exact ⟨_, rfl, fits_bitAnd ha hb, testBit_bitAnd a b⟩
  | bitOr =>
      cases h
      exact ⟨_, rfl, fits_bitOr ha hb, testBit_bitOr a b⟩
  | bitXor =>
      cases h
      exact ⟨_, rfl, fits_bitXor ha hb, testBit_bitXor a b⟩
  | bitClear =>
      cases h
      refine ⟨_, rfl, fits_bitAnd ha (fits_complement.trans hb), fun i => ?_⟩
      unfold bitClear
      rw [testBit_bitAnd, testBit_complement]
  | shiftLeft => exact shiftLeft_exact h
  | shiftRight => exact shiftRight_exact ha h
  | _ => cases hop

theorem unary_exact {op : UnaryOp} (ha : fits a = true) (h : unary op (int a) = .ok x) :
    exists c, x = int c ∧ fits c = true ∧ op.Gives a c := by
  cases op with
  | plus =>
      cases h
      exact ⟨a, rfl, ha, rfl⟩
  | minus =>
      rw [unary] at h
      split at h
      · cases h
      · next hleast =>
          cases h
          refine ⟨_, rfl, ?_, rfl⟩
          have hne : a ≠ minInt := fun heq => hleast (beq_iff_eq.mpr heq)
          rw [fits_iff] at ha ⊢
          unfold minInt maxInt at *
          omega
  | complement =>
      cases h
      exact ⟨_, rfl, fits_complement.trans ha, complement_eq a⟩
  | _ => cases h

end Constant
end GoAtlas
