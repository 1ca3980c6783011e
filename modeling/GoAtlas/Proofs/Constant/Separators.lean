import GoAtlas.Proofs.Constant.Literals
import GoAtlas.Proofs.Lists

/-!
# Separated digits

Integer literals as they are written, with a mark for the radix, letters in either case, zeros in
front and underscores between the digits.  Such a literal is read as exactly its number, however
many digits it has, up to the greatest integer of a constant; above it there is no value.
-/

namespace GoAtlas
namespace Literal

/-- A row of digits with at most one underscore between any two of them, and the digits alone. -/
inductive Separated : List Char -> List Char -> Prop
  | last (c : Char) : Separated [c] [c]
  | digit (c : Char) {text digits : List Char} (rest : Separated text digits) :
      Separated (c :: text) (c :: digits)
  | underscore (c : Char) {text digits : List Char} (rest : Separated text digits) :
      Separated (c :: '_' :: text) (c :: digits)

def gaps : List (List Char) := [[], ['_']]

/-- The written forms of a natural number as an integer literal. -/
inductive Written : List Char -> Nat -> Prop
  | zero : Written ['0'] 0
  | decimal {text digits : List Char} {n : Nat} (separated : Separated text digits)
      (spells : Spells 10 digits n) (hzero : digits.head? ≠ some '0') : Written text n
  | octal {gap text digits : List Char} {n : Nat} (hgap : gap ∈ gaps)
      (separated : Separated text digits) (spells : Spells 8 digits n) :
      Written ('0' :: (gap ++ text)) n
  | marked {mark : Char} {radix : Nat} {gap text digits : List Char} {n : Nat}
      (hmark : (mark.toLower, radix) ∈ marks) (hgap : gap ∈ gaps)
      (separated : Separated text digits) (spells : Spells radix digits n) :
      Written ('0' :: mark :: (gap ++ text)) n

section Separators

variable {radix n : Nat} {text digits gap : List Char}

theorem Digit.ne_underscore {d : Nat} {c : Char} (h : Digit radix c d) (hradix : radix ≤ 16) :
    c ≠ '_' := by
  rintro rfl
  have hvalue := h.value hradix
  have hnone : digitValue? radix '_' = none := rfl
  rw [hnone] at hvalue
  cases hvalue

theorem Spells.ne_underscore (h : Spells radix digits n) (hradix : radix ≤ 16) :
    forall c, c ∈ digits -> c ≠ '_' := by
  obtain ⟨_, ds, hds, _⟩ := h
  intro c hc
  obtain ⟨d, _, hdigit⟩ := exists_mem_right hds hc
  exact hdigit.ne_underscore hradix

theorem Separated.filter (h : Separated text digits) (hdigits : forall c, c ∈ digits -> c ≠ '_') :
    text.filter (· != '_') = digits := by
  induction h with
  | last c => simp [hdigits c]
  | digit c _ ih =>
      have hrest := ih fun d hd => hdigits d (List.mem_cons_of_mem c hd)
      simp [hdigits c, hrest]
  | underscore c _ ih =>
      have hrest := ih fun d hd => hdigits d (List.mem_cons_of_mem c hd)
      simp [hdigits c, hrest]

theorem filter_gap (h : gap ∈ gaps) : gap.filter (· != '_') = [] := by
  unfold gaps at h
  simp only [List.mem_cons, List.not_mem_nil, or_false] at h
  rcases h with rfl | rfl <;> rfl

theorem radix_le_of_mem_marks {mark : Char} (h : (mark, radix) ∈ marks) :
    radix ≤ 16 ∧ mark ≠ '_' := by
  unfold marks at h
  simp only [List.mem_cons, Prod.mk.injEq, List.not_mem_nil, or_false] at h
  rcases h with ⟨rfl, rfl⟩ | ⟨rfl, rfl⟩ | ⟨rfl, rfl⟩ <;> decide

theorem Written.numeral (h : Written text n) : Numeral (text.filter (· != '_')) n := by
  cases h with
  | zero => exact .zero
  | @decimal _ digits _ separated spells hzero =>
      rw [separated.filter (spells.ne_underscore (by decide))]
      obtain ⟨c, _, rest, rfl, _⟩ := spells.exists_head
      exact .decimal (fun hc => hzero (by rw [hc, List.head?_cons])) spells
  | octal hgap separated spells =>
      have hdigits := separated.filter (spells.ne_underscore (by decide))
      simpa [filter_gap hgap, hdigits] using Numeral.octal spells
  | @marked mark _ _ _ _ _ hmark hgap separated spells =>
      obtain ⟨hradix, hlower⟩ := radix_le_of_mem_marks hmark
      have hne : mark ≠ '_' := by
        rintro rfl
        exact hlower rfl
      have hdigits := separated.filter (spells.ne_underscore hradix)
      simpa [hne, filter_gap hgap, hdigits] using Numeral.marked hmark spells

theorem fits_natCast (n : Nat) : Constant.fits n = decide (n < 2 ^ 127) := by
  unfold Constant.fits Constant.minInt Constant.maxInt
  rw [← Bool.decide_and]
  apply decide_eq_decide.mpr
  omega

/-- An integer literal is read as its number if this is below 2¹²⁷, and has no value otherwise. -/
theorem int?_of_written {text : String} {n : Nat} (h : Written text.toList n) :
    int? text = if n < 2 ^ 127 then some (n : Int) else none := by
  rw [int?_of_numeral h.numeral, fits_natCast]
  simp only [decide_eq_true_eq]

/-- The letter that marks hexadecimal digits and these digits in either case, with a zero in front
and underscores. -/
theorem int?_of_written_mixed :
    Written "0X_0b_fF".toList 3071 ∧ int? "0X_0b_fF" = some 3071 := by
  have hspells : Spells 16 ['0', 'b', 'f', 'F'] 3071 :=
    ⟨by decide, [0, 11, 15, 15], by decide, rfl⟩
  have hwritten : Written "0X_0b_fF".toList 3071 :=
    .marked (by decide) (by decide : ['_'] ∈ gaps)
      (.digit '0' (.underscore 'b' (.digit 'f' (.last 'F')))) hspells
  refine ⟨hwritten, (int?_of_written hwritten).trans ?_⟩
  rfl

end Separators
end Literal
end GoAtlas
