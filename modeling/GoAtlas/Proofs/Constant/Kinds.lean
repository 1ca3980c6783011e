import GoAtlas.Constant.Conversion
import Mathlib.Algebra.Group.Int.Defs

/-!
# Values of kinds

The integers that a sized kind has, by its sign and its width, and the constants that represent a
value of a kind.  What a conversion finds is such a constant.
-/

namespace GoAtlas
namespace BasicKind

def signedWidth? : BasicKind -> Option Nat
  | int8 => some 8
  | int16 => some 16
  | int32 => some 32
  | int | int64 => some 64
  | _ => none

def unsignedWidth? : BasicKind -> Option Nat
  | uint8 => some 8
  | uint16 => some 16
  | uint32 => some 32
  | uint | uint64 | uintptr => some 64
  | _ => none

/-- The kind has the integer.  Kinds without a width have all integers. -/
structure Has (kind : BasicKind) (v : Int) : Prop where
  signed : forall n, kind.signedWidth? = some n -> -2 ^ (n - 1) ≤ v ∧ v < 2 ^ (n - 1)
  unsigned : forall n, kind.unsignedWidth? = some n -> 0 ≤ v ∧ v < 2 ^ n

theorem unsignedWidth?_of_signed {kind : BasicKind} {n : Nat} (h : kind.signedWidth? = some n) :
    kind.unsignedWidth? = none := by
  cases kind with
  | int | int8 | int16 | int32 | int64 => rfl
  | _ => cases h

theorem signedWidth?_of_unsigned {kind : BasicKind} {n : Nat} (h : kind.unsignedWidth? = some n) :
    kind.signedWidth? = none := by
  cases kind with
  | uint | uint8 | uint16 | uint32 | uint64 | uintptr => rfl
  | _ => cases h

theorem has_of_signed {kind : BasicKind} {n : Nat} (h : kind.signedWidth? = some n) {v : Int} :
    kind.Has v ↔ -2 ^ (n - 1) ≤ v ∧ v < 2 ^ (n - 1) := by
  refine ⟨fun hv => hv.signed n h, fun hv => ⟨fun m hm => ?_, fun m hm => ?_⟩⟩
  · cases h.symm.trans hm
    exact hv
  · cases hm.symm.trans (unsignedWidth?_of_signed h)

theorem has_of_unsigned {kind : BasicKind} {n : Nat} (h : kind.unsignedWidth? = some n) {v : Int} :
    kind.Has v ↔ 0 ≤ v ∧ v < 2 ^ n := by
  refine ⟨fun hv => hv.unsigned n h, fun hv => ⟨fun m hm => ?_, fun m hm => ?_⟩⟩
  · cases hm.symm.trans (signedWidth?_of_unsigned h)
  · cases h.symm.trans hm
    exact hv

theorem has_of_inRange {kind : BasicKind} {v : Int} (h : kind.inRange v = true) : kind.Has v := by
  unfold inRange at h
  cases kind with
  | int | int8 | int16 | int32 | int64 =>
      rw [has_of_signed rfl]
      simp only [intRange?, Bool.and_eq_true, decide_eq_true_iff] at h
      omega
  | uint | uint8 | uint16 | uint32 | uint64 | uintptr =>
      rw [has_of_unsigned rfl]
      simp only [intRange?, Bool.and_eq_true, decide_eq_true_iff] at h
      omega
  | _ => exact ⟨fun n hn => (by cases hn), fun n hn => (by cases hn)⟩

end BasicKind

namespace Constant

structure Represents (kind : BasicKind) (x : Constant) : Prop where
  integer : kind.isInteger = true -> exists v, x = int v ∧ kind.Has v
  float : kind.isFloat = true -> exists v, x = float v
  string : kind.isString = true -> exists s, x = string s
  bool : kind.isBool = true -> exists b, x = bool b

theorem represents_invalid (x : Constant) : Represents .invalid x :=
  ⟨fun h => (by cases h), fun h => (by cases h), fun h => (by cases h), fun h => (by cases h)⟩

section Conversion

variable {x y : Constant} {kind : BasicKind}

theorem int_of_toIntKind (h : x.toIntKind kind = .ok y) :
    exists v, x.toInt? = some v ∧ y = int v ∧ kind.inRange v = true := by
  unfold toIntKind at h
  split at h
  · cases h
  · next v hv =>
      split at h
      · next hrange =>
          cases h
          exact ⟨v, hv, rfl, hrange⟩
      · cases h

theorem float_of_toFloatKind (h : x.toFloatKind kind = .ok y) : exists v, y = float v := by
  unfold toFloatKind at h
  split at h
  · cases h
  · cases h
    exact ⟨_, rfl⟩

theorem string_of_toStringKind (h : x.toStringKind kind = .ok y) : exists s, y = string s := by
  cases x with
  | string s =>
      cases h
      exact ⟨s, rfl⟩
  | int v =>
      cases h
      exact ⟨_, rfl⟩
  | bool _ | float _ => cases h

theorem bool_of_toBoolKind (h : x.toBoolKind kind = .ok y) : exists b, y = bool b := by
  cases x with
  | bool b =>
      cases h
      exact ⟨b, rfl⟩
  | string _ | int _ | float _ => cases h

theorem represents_of_convert (h : x.convert kind = .ok y) : Represents kind y := by
  unfold convert at h
  constructor
  · intro hkind
    rw [if_pos hkind] at h
    obtain ⟨v, _, hy, hrange⟩ := int_of_toIntKind h
    exact ⟨v, hy, BasicKind.has_of_inRange hrange⟩
  · intro hkind
    cases kind with
    | float32 | float64 | untypedFloat => exact float_of_toFloatKind h
    | _ => cases hkind
  · intro hkind
    cases kind with
    | string | untypedString => exact string_of_toStringKind h
    | _ => cases hkind
  · intro hkind
    cases kind with
    | bool | untypedBool => exact bool_of_toBoolKind h
    | _ => cases hkind

end Conversion
end Constant
end GoAtlas
