import GoAtlas.Constant.Literal
import Mathlib.Data.List.Forall2
import Mathlib.Data.Nat.Digits.Defs

/-!
# Integer literals

The number that a literal is written for, by the positions of its digits, and that reading the
literal finds that number.
-/

namespace GoAtlas
namespace Literal

/-!
# Digits
-/

def Digit (radix : Nat) (c : Char) (d : Nat) : Prop :=
  d < radix ∧ (c = Nat.digitChar d ∨ c = (Nat.digitChar d).toUpper)

instance (radix : Nat) (c : Char) (d : Nat) : Decidable (Digit radix c d) :=
  inferInstanceAs (Decidable (d < radix ∧ (c = Nat.digitChar d ∨ c = (Nat.digitChar d).toUpper)))

def IsDigit (radix : Nat) (c : Char) : Prop := exists d, Digit radix c d

def Spells (radix : Nat) (cs : List Char) (n : Nat) : Prop :=
  cs ≠ [] ∧ exists ds, List.Forall₂ (Digit radix) cs ds ∧ n = Nat.ofDigits radix ds.reverse

section Digits

variable {radix d : Nat} {c : Char} {cs : List Char} {n m : Nat}

theorem Digit.lower (h : Digit radix c d) (hradix : radix ≤ 16) :
    c.toLower = Nat.digitChar d := by
  have hall : forall e, e < 16 -> (Nat.digitChar e).toLower = Nat.digitChar e ∧
      (Nat.digitChar e).toUpper.toLower = Nat.digitChar e := by decide
  obtain ⟨hplain, hupper⟩ := hall d (Nat.lt_of_lt_of_le h.1 hradix)
  rcases h.2 with rfl | rfl
  · exact hplain
  · exact hupper

theorem Digit.value (h : Digit radix c d) (hradix : radix ≤ 16) :
    digitValue? radix c = some d := by
  have hall : forall e, e < 16 -> digitValue? 16 (Nat.digitChar e) = some e ∧
      digitValue? 16 (Nat.digitChar e).toUpper = some e := by decide
  have hvalue : digitValue? 16 c = some d := by
    obtain ⟨hplain, hupper⟩ := hall d (Nat.lt_of_lt_of_le h.1 hradix)
    rcases h.2 with rfl | rfl
    · exact hplain
    · exact hupper
  unfold digitValue? at hvalue ⊢
  exact Option.filter_eq_some_iff.mpr
    ⟨(Option.filter_eq_some_iff.mp hvalue).1, decide_eq_true h.1⟩

theorem Digit.of_value (h : digitValue? radix c = some d) (hradix : radix ≤ 16) :
    Digit radix c d := by
  have hall : forall e, e < 16 ->
      (Nat.digitChar e).toNat = (if e < 10 then e + 48 else e + 87) ∧
        (Nat.digitChar e).toUpper.toNat = (if e < 10 then e + 48 else e + 55) := by decide
  unfold digitValue? at h
  obtain ⟨hvalue, hlt⟩ := Option.filter_eq_some_iff.mp h
  have hlt : d < radix := of_decide_eq_true hlt
  obtain ⟨hplain, hupper⟩ := hall d (Nat.lt_of_lt_of_le hlt hradix)
  refine ⟨hlt, ?_⟩
  rw [← Char.toNat_inj, ← Char.toNat_inj, hplain, hupper]
  simp only [Bool.and_eq_true, decide_eq_true_eq] at hvalue
  grind

theorem digitValue?_eq_none (h : ¬ IsDigit radix c) (hradix : radix ≤ 16) :
    digitValue? radix c = none := by
  cases hvalue : digitValue? radix c with
  | none => rfl
  | some d => exact absurd ⟨d, .of_value hvalue hradix⟩ h

theorem foldl_digitValue {ds : List Nat} (h : List.Forall₂ (Digit radix) cs ds)
    (hradix : radix ≤ 16) (start : Nat) :
    cs.foldl (fun total c =>
        total.bind fun n => (digitValue? radix c).map fun v => n * radix + v) (some start) =
      some (start * radix ^ ds.length + Nat.ofDigits radix ds.reverse) := by
  induction h generalizing start with
  | nil => simp
  | @cons c d cs ds hdigit _ ih =>
      rw [List.foldl_cons, Option.bind_some, hdigit.value hradix, Option.map_some, ih,
        List.length_cons, List.reverse_cons, Nat.ofDigits_append, Nat.ofDigits_singleton,
        List.length_reverse]
      congr 1
      ring

theorem Spells.digits (h : Spells radix cs n) (hradix : radix ≤ 16) :
    digits? radix cs = some n := by
  obtain ⟨hne, ds, hds, rfl⟩ := h
  cases cs with
  | nil => exact absurd rfl hne
  | cons c cs =>
      refine (foldl_digitValue hds hradix 0).trans ?_
      rw [Nat.zero_mul, Nat.zero_add]

theorem foldl_digitValue_none (cs : List Char) :
    cs.foldl (fun total c =>
      total.bind fun n => (digitValue? radix c).map fun v => n * radix + v) none = none := by
  induction cs with
  | nil => rfl
  | cons c cs ih => simpa using ih

theorem digits?_eq_none {before after : List Char} (h : digitValue? radix c = none) :
    digits? radix (before ++ c :: after) = none := by
  have hdigits : digits? radix (before ++ c :: after) =
      (before ++ c :: after).foldl (fun total c =>
        total.bind fun n => (digitValue? radix c).map fun v => n * radix + v) (some 0) := by
    cases before <;> rfl
  rw [hdigits, List.foldl_append, List.foldl_cons, h]
  simp [foldl_digitValue_none]

theorem Spells.unique (h : Spells radix cs n) (h' : Spells radix cs m) (hradix : radix ≤ 16) :
    n = m :=
  Option.some.inj ((h.digits hradix).symm.trans (h'.digits hradix))

theorem Spells.lower (h : Spells radix cs n) (hradix : radix ≤ 16) :
    Spells radix (cs.map Char.toLower) n := by
  obtain ⟨hne, ds, hds, hn⟩ := h
  refine ⟨fun hnil => hne (List.map_eq_nil_iff.mp hnil), ds, ?_, hn⟩
  rw [List.forall₂_map_left_iff]
  exact hds.imp fun c d hdigit => ⟨hdigit.1, Or.inl (hdigit.lower hradix)⟩

theorem Spells.exists_head (h : Spells radix cs n) :
    exists c d rest, cs = c :: rest ∧ Digit radix c d := by
  obtain ⟨hne, ds, hds, _⟩ := h
  cases hds with
  | nil => exact absurd rfl hne
  | @cons c d rest _ hdigit _ => exact ⟨c, d, rest, rfl, hdigit⟩

end Digits

/-!
# Integers
-/

def marks : List (Char × Nat) := [('x', 16), ('o', 8), ('b', 2)]

/-- An integer literal without its underscores, and the number that it is written for. -/
inductive Numeral : List Char -> Nat -> Prop where
  | zero : Numeral ['0'] 0
  | decimal {c : Char} {cs : List Char} {n : Nat} (hc : c ≠ '0') (h : Spells 10 (c :: cs) n) :
      Numeral (c :: cs) n
  | octal {cs : List Char} {n : Nat} (h : Spells 8 cs n) : Numeral ('0' :: cs) n
  | marked {mark : Char} {radix : Nat} {cs : List Char} {n : Nat}
      (hmark : (mark.toLower, radix) ∈ marks) (h : Spells radix cs n) :
      Numeral ('0' :: mark :: cs) n

section Integers

variable {cs : List Char} {n m : Nat}

theorem splitSign_of_digit {radix d : Nat} {c : Char} {rest : List Char} (h : Digit radix c d)
    (hradix : radix ≤ 16) : Decimal.splitSign (c :: rest) = (false, c :: rest) := by
  have hvalue := h.value hradix
  unfold Decimal.splitSign
  split
  · next heq =>
      cases heq
      cases hvalue
  · next heq =>
      cases heq
      cases hvalue
  · rfl

theorem radixOf_octal {d : Nat} {c : Char} {rest : List Char} (h : Digit 8 c d) :
    radixOf ('0' :: c :: rest) = (8, c :: rest) := by
  have hvalue := h.value (by decide)
  unfold radixOf
  split
  · next heq =>
      cases heq
      cases hvalue
  · next heq =>
      cases heq
      cases hvalue
  · next heq =>
      cases heq
      cases hvalue
  · next heq =>
      cases heq
      rfl
  · next hnone => exact absurd rfl (hnone c rest)

theorem radixOf_decimal {c : Char} {rest : List Char} (h : c ≠ '0') :
    radixOf (c :: rest) = (10, c :: rest) := by
  unfold radixOf
  split
  · next heq => exact absurd (List.head_eq_of_cons_eq heq) h
  · next heq => exact absurd (List.head_eq_of_cons_eq heq) h
  · next heq => exact absurd (List.head_eq_of_cons_eq heq) h
  · next heq => exact absurd (List.head_eq_of_cons_eq heq) h
  · rfl

theorem toLower_ne_zero {d : Nat} {c : Char} (h : Digit 10 c d) (hc : c ≠ '0') :
    c.toLower ≠ '0' := by
  have hall : forall e, e < 10 -> Nat.digitChar e = '0' -> e = 0 := by decide
  intro hzero
  rw [h.lower (by decide)] at hzero
  cases hall d h.1 hzero
  rcases h.2 with rfl | rfl
  · exact hc rfl
  · exact hc rfl

theorem Numeral.reads (h : Numeral cs n) :
    exists radix digits, radixOf (cs.map Char.toLower) = (radix, digits) ∧ radix ≤ 16 ∧
      Spells radix digits n := by
  cases h with
  | zero =>
      exact ⟨10, ['0'], rfl, by decide, by decide, [0], .cons ⟨by decide, Or.inl rfl⟩ .nil, rfl⟩
  | @decimal c cs _ hc h =>
      have hlower : c.toLower ≠ '0' := by
        obtain ⟨_, _, _, heq, hdigit⟩ := h.exists_head
        cases heq
        exact toLower_ne_zero hdigit hc
      exact ⟨10, _, radixOf_decimal hlower, by decide, h.lower (by decide)⟩
  | @octal cs _ h =>
      have hlower := h.lower (by decide)
      obtain ⟨c, d, rest, hcs, hdigit⟩ := hlower.exists_head
      rw [hcs] at hlower
      refine ⟨8, c :: rest, ?_, by decide, hlower⟩
      rw [List.map_cons, hcs]
      exact radixOf_octal hdigit
  | @marked mark radix cs _ hmark h =>
      unfold marks at hmark
      simp only [List.mem_cons, Prod.mk.injEq, List.not_mem_nil, or_false] at hmark
      rcases hmark with ⟨hmark, rfl⟩ | ⟨hmark, rfl⟩ | ⟨hmark, rfl⟩
      all_goals
        refine ⟨_, cs.map Char.toLower, ?_, by decide, h.lower (by decide)⟩
        rw [List.map_cons, List.map_cons, hmark]
        rfl

theorem Numeral.unique (h : Numeral cs n) (h' : Numeral cs m) : n = m := by
  obtain ⟨radix, digits, hof, hradix, hspells⟩ := h.reads
  obtain ⟨_, _, hof', _, hspells'⟩ := h'.reads
  cases hof.symm.trans hof'
  exact hspells.unique hspells' hradix

/-- An integer literal is read exactly, or not at all where its number has more than 128 bits. -/
theorem int?_of_numeral {text : String} (h : Numeral (withoutUnderscores text) n) :
    int? text = if Constant.fits n then some (n : Int) else none := by
  obtain ⟨radix, digits, hof, hradix, hspells⟩ := h.reads
  obtain ⟨c, d, rest, rfl, hdigit⟩ := hspells.exists_head
  unfold int? signedDigits?
  rw [hof]
  dsimp only
  rw [splitSign_of_digit hdigit hradix]
  dsimp only
  rw [hspells.digits hradix]
  rfl

end Integers

end Literal
end GoAtlas
