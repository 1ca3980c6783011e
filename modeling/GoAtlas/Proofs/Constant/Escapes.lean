import GoAtlas.Proofs.Constant.Literals
import GoAtlas.Proofs.Lists

/-!
# Escapes and rune literals

How the pieces between two quotes are read: a character that is written as it is, a letter behind
a backslash, a number in hexadecimal or octal digits.  From them the code point that a rune literal
is written for, and that reading the literal finds it.
-/

namespace GoAtlas
namespace Literal

/-!
# Escapes
-/

def escapes : List (Char × Nat) :=
  [('a', 7), ('b', 8), ('f', 12), ('n', 10), ('r', 13), ('t', 9), ('v', 11), ('\\', 92), ('\'', 39)]

def codes : List (Char × Nat) := [('x', 2), ('u', 4), ('U', 8)]

def quotes : List Char := ['\'', '"']

def Reads (quote : Char) (piece : List Char) (c : Char) : Prop :=
  forall rest, unescape? quote (piece ++ rest) = (unescape? quote rest).map (c :: ·)

section Escapes

variable {quote c letter : Char} {ds rest : List Char} {n radix width : Nat}

theorem eq_of_mem_quotes (h : quote ∈ quotes) : quote = '\'' ∨ quote = '"' := by
  simpa [quotes] using h

theorem not_mem_codes_of_mem_quotes (h : quote ∈ quotes) (width : Nat) :
    (quote, width) ∉ codes := by
  rcases eq_of_mem_quotes h with rfl | rfl
  · simp [codes]
  · simp [codes]

theorem not_mem_codes_of_mem_escapes (h : (letter, n) ∈ escapes) (width : Nat) :
    (letter, width) ∉ codes := by
  have hall : forall e, e ∈ escapes -> forall e', e' ∈ codes -> e.1 ≠ e'.1 := by decide
  exact fun hmem => hall (letter, n) h (letter, width) hmem rfl

theorem not_digit_of_mem_codes {d : Nat} (h : (letter, width) ∈ codes) :
    ¬ Digit 8 letter d := by
  intro hdigit
  have hvalue := hdigit.value (by decide)
  unfold codes at h
  simp only [List.mem_cons, Prod.mk.injEq, List.not_mem_nil, or_false] at h
  rcases h with ⟨rfl, _⟩ | ⟨rfl, _⟩ | ⟨rfl, _⟩
  all_goals cases hvalue

theorem toNat_ofNat_of_valid (h : n.isValidChar) : (Char.ofNat n).toNat = n := by
  unfold Char.ofNat
  rw [dif_pos h]
  rfl

theorem Reads.alone {piece : List Char} (h : Reads quote piece c) :
    unescape? quote piece = some [c] := by
  have hread := h []
  rw [List.append_nil] at hread
  rw [hread]
  simp [unescape?]

theorem reads_plain (hc : c ≠ '\\') : Reads quote [c] c := by
  intro rest
  simp [unescape?, hc]

theorem hexChar?_spelled (h : Spells 16 ds n) :
    hexChar? ds = if n.isValidChar then some (Char.ofNat n) else none := by
  unfold hexChar?
  rw [h.digits (by decide), Option.bind_some]

theorem unescape?_code (h : (letter, ds.length) ∈ codes) :
    unescape? quote ('\\' :: letter :: (ds ++ rest)) =
      (hexChar? ds).bind fun c => (unescape? quote rest).map (c :: ·) := by
  unfold codes at h
  simp only [List.mem_cons, Prod.mk.injEq, List.not_mem_nil, or_false] at h
  rcases h with ⟨rfl, hlength⟩ | ⟨rfl, hlength⟩ | ⟨rfl, hlength⟩
  · match ds, hlength with
    | [a, b], _ => simp [unescape?, Option.map_eq_bind]
  · match ds, hlength with
    | [a, b, c, d], _ => simp [unescape?, Option.map_eq_bind]
  · match ds, hlength with
    | [a, b, c, d, e, f, g, h], _ => simp [unescape?, Option.map_eq_bind]

theorem reads_code (h : (letter, ds.length) ∈ codes) (hc : hexChar? ds = some c) :
    Reads quote ('\\' :: letter :: ds) c := by
  intro rest
  rw [List.cons_append, List.cons_append, unescape?_code h, hc, Option.bind_some]

theorem unescape?_code_none (h : (letter, ds.length) ∈ codes) (hnone : hexChar? ds = none) :
    unescape? quote ('\\' :: letter :: (ds ++ rest)) = none := by
  rw [unescape?_code h, hnone, Option.bind_none]

theorem reads_number (hletter : (letter, ds.length) ∈ codes) (h : Spells 16 ds n)
    (hvalid : n.isValidChar) : Reads quote ('\\' :: letter :: ds) (Char.ofNat n) := by
  refine reads_code hletter ?_
  rw [hexChar?_spelled h, if_pos hvalid]

theorem unescape?_number_none (hletter : (letter, ds.length) ∈ codes) (h : Spells 16 ds n)
    (hvalid : ¬ n.isValidChar) : unescape? quote ('\\' :: letter :: (ds ++ rest)) = none := by
  refine unescape?_code_none hletter ?_
  rw [hexChar?_spelled h, if_neg hvalid]

theorem ne_of_not_mem_codes (h : forall width, (letter, width) ∉ codes) :
    letter ≠ 'x' ∧ letter ≠ 'u' ∧ letter ≠ 'U' := by
  refine ⟨?_, ?_, ?_⟩
  · rintro rfl
    exact h 2 (by decide)
  · rintro rfl
    exact h 4 (by decide)
  · rintro rfl
    exact h 8 (by decide)

theorem reads_letter (hcode : forall width, (letter, width) ∉ codes)
    (h : simpleEscape? quote letter = some c) : Reads quote ['\\', letter] c := by
  obtain ⟨hx, hu, hU⟩ := ne_of_not_mem_codes hcode
  intro rest
  cases hdigit : digitValue? 8 letter with
  | none => simp [unescape?, hx, hu, hU, h, hdigit]
  | some i =>
      match rest with
      | [] => simp [unescape?, h]
      | [_] => simp [unescape?, h]
      | _ :: _ :: _ => simp [unescape?, hx, hu, hU, h, hdigit]

theorem simpleEscape?_eq_none (hquote : letter ≠ quote)
    (h : forall n, (letter, n) ∈ escapes -> letter = '\'') : simpleEscape? quote letter = none := by
  unfold simpleEscape?
  split
  case h_9 => simp [hquote]
  all_goals simp [escapes] at h

theorem not_mem_codes_of_isDigit (h : IsDigit 8 c) (width : Nat) : (c, width) ∉ codes := by
  obtain ⟨d, hdigit⟩ := h
  exact fun hmem => not_digit_of_mem_codes hmem hdigit

theorem simpleEscape?_of_isDigit (hquote : quote ∈ quotes) (h : IsDigit 8 c) :
    simpleEscape? quote c = none := by
  obtain ⟨d, hdigit⟩ := h
  have hvalue := hdigit.value (by decide)
  refine simpleEscape?_eq_none ?_ fun n hn => ?_
  · rintro rfl
    rcases eq_of_mem_quotes hquote with rfl | rfl
    · cases hvalue
    · cases hvalue
  · have hall : forall e, e ∈ escapes -> digitValue? 8 e.1 = none := by decide
    cases (hall (c, n) hn).symm.trans hvalue

theorem Spells.lt_pow (h : Spells radix ds n) (hradix : 1 < radix) : n < radix ^ ds.length := by
  obtain ⟨_, values, hvalues, rfl⟩ := h
  rw [hvalues.length_eq, ← List.length_reverse]
  refine Nat.ofDigits_lt_base_pow_length hradix fun d hd => ?_
  obtain ⟨_, _, hdigit⟩ := exists_mem_left hvalues (List.mem_reverse.mp hd)
  exact hdigit.1

theorem reads_octal (hquote : quote ∈ quotes) (hlength : ds.length = 3) (h : Spells 8 ds n) :
    Reads quote ('\\' :: ds) (Char.ofNat n) := by
  obtain ⟨_, values, hvalues, rfl⟩ := h
  match ds, values, hlength, hvalues with
  | [a, b, c], [i, j, k], _, .cons ha (.cons hb (.cons hc .nil)) =>
      obtain ⟨hx, hu, hU⟩ := ne_of_not_mem_codes (not_mem_codes_of_isDigit ⟨i, ha⟩)
      have hsimple := simpleEscape?_of_isDigit hquote ⟨i, ha⟩
      have hnumber : Nat.ofDigits 8 [k, j, i] = i * 64 + j * 8 + k := by
        simp only [Nat.ofDigits_cons, Nat.ofDigits_nil]
        omega
      intro rest
      simp [unescape?, hx, hu, hU, hsimple, ha.value, hb.value, hc.value, hnumber,
        Option.map_eq_bind]

theorem simpleEscape?_quote (h : quote ∈ quotes) : simpleEscape? quote quote = some quote := by
  rcases eq_of_mem_quotes h with rfl | rfl
  · rfl
  · rfl

theorem simpleEscape?_of_mem (h : (letter, n) ∈ escapes) (hquote : letter ≠ '\'') :
    simpleEscape? quote letter = some (Char.ofNat n) := by
  unfold escapes at h
  simp only [List.mem_cons, Prod.mk.injEq, List.not_mem_nil, or_false] at h
  rcases h with ⟨rfl, rfl⟩ | ⟨rfl, rfl⟩ | ⟨rfl, rfl⟩ | ⟨rfl, rfl⟩ | ⟨rfl, rfl⟩ | ⟨rfl, rfl⟩ |
    ⟨rfl, rfl⟩ | ⟨rfl, rfl⟩ | ⟨rfl, rfl⟩
  case inr.inr.inr.inr.inr.inr.inr.inr => exact absurd rfl hquote
  all_goals rfl

end Escapes

/-!
# Runes
-/

/-- What stands between the quotes of a rune literal, and the code point that it is written
for. -/
inductive Quoted : List Char -> Nat -> Prop where
  | plain {c : Char} (hc : c ≠ '\\') : Quoted [c] c.toNat
  | escape {c : Char} {n : Nat} (hc : (c, n) ∈ escapes) : Quoted ['\\', c] n
  | code {letter : Char} {cs : List Char} {n : Nat} (hletter : (letter, cs.length) ∈ codes)
      (h : Spells 16 cs n) : Quoted ('\\' :: letter :: cs) n
  | octal {cs : List Char} {n : Nat} (hlength : cs.length = 3) (h : Spells 8 cs n) :
      Quoted ('\\' :: cs) n

section Runes

variable {body : List Char} {n m : Nat}

theorem Quoted.unique (h : Quoted body n) (h' : Quoted body m) : n = m := by
  cases h with
  | plain hc =>
      cases h' with
      | plain _ => rfl
      | octal hlength _ => exact absurd rfl hc
  | @escape c _ hc =>
      cases h' with
      | escape hc' =>
          have hall : forall e, e ∈ escapes -> forall e', e' ∈ escapes -> e.1 = e'.1 ->
              e.2 = e'.2 := by decide
          exact hall (c, n) hc (c, m) hc' rfl
      | code hletter _ =>
          unfold codes at hletter
          simp at hletter
      | octal hlength _ => cases hlength
  | code hletter h =>
      cases h' with
      | escape hc' =>
          unfold codes at hletter
          simp at hletter
      | code _ h' => exact h.unique h' (by decide)
      | octal _ h' =>
          obtain ⟨_, _, _, heq, hdigit⟩ := h'.exists_head
          cases heq
          exact absurd hdigit (not_digit_of_mem_codes hletter)
  | octal hlength h =>
      cases h' with
      | plain hc => exact absurd rfl hc
      | escape hc' => cases hlength
      | code hletter h' =>
          obtain ⟨_, _, _, heq, hdigit⟩ := h.exists_head
          cases heq
          exact absurd hdigit (not_digit_of_mem_codes hletter)
      | octal _ h' => exact h.unique h' (by decide)

theorem unescape?_of_quoted (h : Quoted body n) {cs : List Char}
    (hcs : unescape? '\'' body = some cs) : exists c, cs = [c] ∧ c.toNat = n := by
  cases h with
  | @plain c hc =>
      rw [(reads_plain hc).alone] at hcs
      cases hcs
      exact ⟨c, rfl, rfl⟩
  | @escape c _ hc =>
      have hall : forall e, e ∈ escapes -> simpleEscape? '\'' e.1 = some (Char.ofNat e.2) ∧
          (Char.ofNat e.2).toNat = e.2 := by decide
      obtain ⟨hsimple, hvalue⟩ := hall (c, n) hc
      rw [(reads_letter (not_mem_codes_of_mem_escapes hc) hsimple).alone] at hcs
      cases hcs
      exact ⟨_, rfl, hvalue⟩
  | @code letter ds _ hletter h =>
      by_cases hvalid : n.isValidChar
      · rw [(reads_number hletter h hvalid).alone] at hcs
        cases hcs
        exact ⟨_, rfl, toNat_ofNat_of_valid hvalid⟩
      · have hnone : unescape? '\'' ('\\' :: letter :: (ds ++ [])) = none :=
          unescape?_number_none hletter h hvalid
        rw [List.append_nil] at hnone
        cases hnone.symm.trans hcs
  | @octal ds _ hlength h =>
      rw [(reads_octal (by decide) hlength h).alone] at hcs
      cases hcs
      have hlt := h.lt_pow (by decide)
      rw [hlength] at hlt
      exact ⟨_, rfl, toNat_ofNat_of_valid (.inl (by omega))⟩

theorem rune?_of_quoted {text : String} (htext : text.toList = '\'' :: body ++ ['\''])
    (h : Quoted body n) {v : Int} (hv : rune? text = some v) : v = n ∧ n < 2 ^ 32 := by
  have hbetween : between? '\'' text.toList = some body := by
    rw [htext]
    unfold between?
    simp
  unfold rune? at hv
  rw [hbetween, Option.bind_eq_bind, Option.bind_some] at hv
  obtain ⟨cs, hcs, hv⟩ := Option.bind_eq_some_iff.mp hv
  obtain ⟨c, rfl, rfl⟩ := unescape?_of_quoted h hcs
  cases hv
  exact ⟨rfl, c.val.toNat_lt⟩

end Runes
end Literal
end GoAtlas
