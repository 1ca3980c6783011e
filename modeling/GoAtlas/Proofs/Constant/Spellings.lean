import GoAtlas.Proofs.Constant.Escapes

/-!
# String and rune literals

The ways to write characters between quotes, and that a literal is read as the characters that it
is written for.  A literal is refused exactly if an escape in it is cut short, unknown or the number
of no character.
-/

namespace GoAtlas
namespace Literal

def enclosed (quote : Char) (body : List Char) : String :=
  String.ofList (quote :: (body ++ [quote]))

/-!
# Spellings
-/

/-- The ways to write one character between quotes. -/
inductive Spelling (quote : Char) : List Char -> Char -> Prop where
  | plain {c : Char} (hquote : c ≠ quote) (hc : c ≠ '\\') (hline : c ≠ '\n') :
      Spelling quote [c] c
  | delimiter : Spelling quote ['\\', quote] quote
  | escape {letter c : Char} (hletter : letter ≠ '\'') (h : (letter, c.toNat) ∈ escapes) :
      Spelling quote ['\\', letter] c
  | code {letter c : Char} {ds : List Char} (hletter : (letter, ds.length) ∈ codes)
      (h : Spells 16 ds c.toNat) (hbyte : letter = 'x' -> c.toNat < 128) :
      Spelling quote ('\\' :: letter :: ds) c
  | octal {c : Char} {ds : List Char} (hlength : ds.length = 3) (h : Spells 8 ds c.toNat)
      (hbyte : c.toNat < 128) : Spelling quote ('\\' :: ds) c

/-- A text between quotes in which the characters are written one after the other. -/
def Spelled (quote : Char) (body cs : List Char) : Prop :=
  exists pieces, List.Forall₂ (Spelling quote) pieces cs ∧ body = pieces.flatten

section Spellings

variable {quote c : Char} {body piece cs : List Char} {pieces : List (List Char)}

theorem Spelling.reads (hquote : quote ∈ quotes) (h : Spelling quote piece c) :
    Reads quote piece c := by
  cases h with
  | plain _ hc _ => exact reads_plain hc
  | delimiter =>
      exact reads_letter (not_mem_codes_of_mem_quotes hquote) (simpleEscape?_quote hquote)
  | @escape letter c hletter h =>
      have hsimple : simpleEscape? quote letter = some (Char.ofNat c.toNat) :=
        simpleEscape?_of_mem h hletter
      rw [Char.ofNat_toNat] at hsimple
      exact reads_letter (not_mem_codes_of_mem_escapes h) hsimple
  | @code _ c _ hletter h _ =>
      have hreads : Reads quote _ (Char.ofNat c.toNat) := reads_number hletter h c.valid
      rwa [Char.ofNat_toNat] at hreads
  | octal hlength h _ =>
      have hreads := reads_octal hquote hlength h
      rwa [Char.ofNat_toNat] at hreads

theorem unescape?_flatten (h : List.Forall₂ (Reads quote) pieces cs) :
    unescape? quote pieces.flatten = some cs := by
  induction h with
  | nil => simp [unescape?]
  | cons hreads _ ih =>
      rw [List.flatten_cons, hreads, ih]
      rfl

theorem unescape?_of_spelled (hquote : quote ∈ quotes) (h : Spelled quote body cs) :
    unescape? quote body = some cs := by
  obtain ⟨pieces, hpieces, rfl⟩ := h
  exact unescape?_flatten (hpieces.imp fun _ _ hspelling => hspelling.reads hquote)

end Spellings
/-!
# Broken escapes
-/

def Known (quote letter : Char) : Prop :=
  letter = quote ∨ letter ≠ '\'' ∧ exists n, (letter, n) ∈ escapes

/-- Fewer digits than an escape needs stand before what follows. -/
structure Truncated (radix width : Nat) (ds rest : List Char) : Prop where
  digits : forall d, d ∈ ds -> IsDigit radix d
  short : ds.length < width
  ends : forall c, c ∈ rest.head? -> ¬ IsDigit radix c

/-- One character that is no backslash, or one escape with all its digits. -/
inductive Piece (quote : Char) : List Char -> Prop where
  | plain {c : Char} (hc : c ≠ '\\') : Piece quote [c]
  | letter {letter : Char} (h : Known quote letter) : Piece quote ['\\', letter]
  | code {letter : Char} {ds : List Char} (hletter : (letter, ds.length) ∈ codes)
      (h : forall d, d ∈ ds -> IsDigit 16 d) : Piece quote ('\\' :: letter :: ds)
  | octal {ds : List Char} (hlength : ds.length = 3) (h : forall d, d ∈ ds -> IsDigit 8 d) :
      Piece quote ('\\' :: ds)

/-- The text begins with an escape that is cut short, that is unknown, or that is the number of a
surrogate or of nothing at all. -/
inductive Broken (quote : Char) : List Char -> Prop where
  | bare : Broken quote ['\\']
  | unknown {letter : Char} {rest : List Char} (hknown : ¬ Known quote letter)
      (hcode : forall width, (letter, width) ∉ codes) (hdigit : ¬ IsDigit 8 letter) :
      Broken quote ('\\' :: letter :: rest)
  | code {letter : Char} {width : Nat} {ds rest : List Char} (hletter : (letter, width) ∈ codes)
      (h : Truncated 16 width ds rest) : Broken quote ('\\' :: letter :: (ds ++ rest))
  | octal {ds rest : List Char} (hne : ds ≠ []) (h : Truncated 8 3 ds rest) :
      Broken quote ('\\' :: (ds ++ rest))
  | number {letter : Char} {ds rest : List Char} {n : Nat} (hletter : (letter, ds.length) ∈ codes)
      (h : Spells 16 ds n) (hn : 0xD800 ≤ n ∧ n ≤ 0xDFFF ∨ 0x10FFFF < n) :
      Broken quote ('\\' :: letter :: (ds ++ rest))

/-- A text between quotes with a broken escape in it. -/
def Faulty (quote : Char) (body : List Char) : Prop :=
  exists (pieces : List (List Char)) (rest : List Char),
    (forall piece, piece ∈ pieces -> Piece quote piece) ∧ Broken quote rest ∧
      body = pieces.flatten ++ rest

section Broken

variable {quote c letter : Char} {body piece ds rest : List Char} {radix width n : Nat}

theorem exists_digits (radix width : Nat) (cs : List Char) :
    exists ds rest, cs = ds ++ rest ∧ (forall d, d ∈ ds -> IsDigit radix d) ∧
      (ds.length = width ∨ Truncated radix width ds rest) := by
  induction width generalizing cs with
  | zero => exact ⟨[], cs, rfl, by simp, Or.inl rfl⟩
  | succ width ih =>
      cases cs with
      | nil => exact ⟨[], [], rfl, by simp, Or.inr ⟨by simp, by simp, by simp⟩⟩
      | cons c cs =>
          by_cases hdigit : IsDigit radix c
          · obtain ⟨ds, rest, rfl, hds, hwidth⟩ := ih cs
            have hdigits : forall d, d ∈ c :: ds -> IsDigit radix d :=
              List.forall_mem_cons.mpr ⟨hdigit, hds⟩
            refine ⟨c :: ds, rest, rfl, hdigits, ?_⟩
            rcases hwidth with rfl | htruncated
            · exact Or.inl rfl
            · exact Or.inr ⟨hdigits, Nat.succ_lt_succ htruncated.short, htruncated.ends⟩
          · refine ⟨[], c :: cs, rfl, by simp, Or.inr ⟨by simp, by simp, ?_⟩⟩
            rintro d ⟨⟩
            exact hdigit

theorem exists_spells (hne : ds ≠ []) (h : forall d, d ∈ ds -> IsDigit radix d) :
    exists n, Spells radix ds n := by
  have hvalues : exists values, List.Forall₂ (Digit radix) ds values := by
    clear hne
    induction ds with
    | nil => exact ⟨[], .nil⟩
    | cons c cs ih =>
        obtain ⟨⟨d, hd⟩, hcs⟩ := List.forall_mem_cons.mp h
        obtain ⟨values, hvalues⟩ := ih hcs
        exact ⟨d :: values, .cons hd hvalues⟩
  obtain ⟨values, hvalues⟩ := hvalues
  exact ⟨_, hne, values, hvalues, rfl⟩

theorem Known.reads (hquote : quote ∈ quotes) (h : Known quote letter) :
    exists c, Reads quote ['\\', letter] c := by
  rcases h with rfl | ⟨hletter, n, hn⟩
  · exact ⟨_, (Spelling.delimiter).reads hquote⟩
  · exact ⟨_, reads_letter (not_mem_codes_of_mem_escapes hn) (simpleEscape?_of_mem hn hletter)⟩

theorem ne_nil_of_mem_codes (h : (letter, ds.length) ∈ codes) : ds ≠ [] := by
  have hall : forall e, e ∈ codes -> e.2 ≠ 0 := by decide
  exact fun hnil => hall _ h (List.length_eq_zero_iff.mpr hnil)

def Opens (quote : Char) (body : List Char) : Prop :=
  exists piece c rest, Piece quote piece ∧ Reads quote piece c ∧ piece ≠ [] ∧ body = piece ++ rest

theorem opens_or_broken_code (hletter : (letter, width) ∈ codes) (cs : List Char) :
    Opens quote ('\\' :: letter :: cs) ∨ Broken quote ('\\' :: letter :: cs) := by
  obtain ⟨ds, rest, rfl, hds, rfl | htruncated⟩ := exists_digits 16 width cs
  · obtain ⟨n, hn⟩ := exists_spells (ne_nil_of_mem_codes hletter) hds
    by_cases hvalid : n.isValidChar
    · exact Or.inl ⟨_, _, rest, .code hletter hds, reads_number hletter hn hvalid, by simp, rfl⟩
    · refine Or.inr (.number hletter hn ?_)
      unfold Nat.isValidChar at hvalid
      omega
  · exact Or.inr (.code hletter htruncated)

theorem opens_or_broken_octal (hquote : quote ∈ quotes) (hdigit : IsDigit 8 letter)
    (cs : List Char) :
    Opens quote ('\\' :: letter :: cs) ∨ Broken quote ('\\' :: letter :: cs) := by
  obtain ⟨ds, rest, hcs, hds, hlength | htruncated⟩ := exists_digits 8 3 (letter :: cs)
  · obtain ⟨n, hn⟩ := exists_spells (List.ne_nil_of_length_pos (by omega)) hds
    rw [hcs]
    exact Or.inl ⟨_, _, rest, .octal hlength hds, reads_octal hquote hlength hn, by simp, rfl⟩
  · have hne : ds ≠ [] := by
      rintro rfl
      rw [List.nil_append] at hcs
      exact htruncated.ends letter (by simp [← hcs]) hdigit
    rw [hcs]
    exact Or.inr (.octal hne htruncated)

/-- A text begins with a piece that is read, or with a broken escape. -/
theorem opens_or_broken (hquote : quote ∈ quotes) (c : Char) (cs : List Char) :
    Opens quote (c :: cs) ∨ Broken quote (c :: cs) := by
  by_cases hc : c = '\\'
  case neg => exact Or.inl ⟨[c], c, cs, .plain hc, reads_plain hc, by simp, rfl⟩
  subst hc
  cases cs with
  | nil => exact Or.inr .bare
  | cons letter cs =>
      by_cases hcode : exists width, (letter, width) ∈ codes
      · obtain ⟨width, hletter⟩ := hcode
        exact opens_or_broken_code hletter cs
      · by_cases hknown : Known quote letter
        · obtain ⟨d, hreads⟩ := hknown.reads hquote
          exact Or.inl ⟨_, d, cs, .letter hknown, hreads, by simp, rfl⟩
        · by_cases hdigit : IsDigit 8 letter
          · exact opens_or_broken_octal hquote hdigit cs
          · exact Or.inr (.unknown hknown (not_exists.mp hcode) hdigit)

/-- A piece does not mend what follows it. -/
theorem unescape?_append_none (hquote : quote ∈ quotes) (h : Piece quote piece)
    (hrest : unescape? quote rest = none) : unescape? quote (piece ++ rest) = none := by
  have hreads : forall d, Reads quote piece d -> unescape? quote (piece ++ rest) = none := by
    intro d hreads
    rw [hreads, hrest, Option.map_none]
  cases h with
  | plain hc => exact hreads _ (reads_plain hc)
  | letter h =>
      obtain ⟨d, hd⟩ := h.reads hquote
      exact hreads d hd
  | @code _ ds hletter h =>
      cases hchar : hexChar? ds with
      | none => exact unescape?_code_none hletter hchar
      | some d => exact hreads d (reads_code hletter hchar)
  | octal hlength h =>
      obtain ⟨n, hn⟩ := exists_spells (List.ne_nil_of_length_pos (by omega)) h
      exact hreads _ (reads_octal hquote hlength hn)

theorem unescape?_code_short (hquote : quote ∈ quotes) (hletter : (letter, width) ∈ codes)
    (hshort : rest.length < width) : unescape? quote ('\\' :: letter :: rest) = none := by
  have hsimple : simpleEscape? quote letter = none := by
    refine simpleEscape?_eq_none ?_ fun n hn => ?_
    · rintro rfl
      exact not_mem_codes_of_mem_quotes hquote width hletter
    · exact absurd hletter (not_mem_codes_of_mem_escapes hn width)
  have hdigit : digitValue? 8 letter = none :=
    digitValue?_eq_none (fun ⟨_, hdigit⟩ => not_digit_of_mem_codes hletter hdigit) (by decide)
  unfold unescape?
  split
  case h_1 heq => cases heq
  case h_5 heq =>
      cases heq
      rw [hsimple, hdigit]
  case h_6 heq => cases heq
  case h_7 hletters _ heq =>
      cases heq
      exact (hletters letter rest rfl rfl).elim
  -- Where all the digits are there the text is not short.
  all_goals
    rename_i heq
    cases heq
    simp only [List.length_cons] at hshort
    simp [codes] at hletter
    omega

theorem unescape?_code_truncated (hquote : quote ∈ quotes) (hletter : (letter, width) ∈ codes)
    (h : Truncated 16 width ds rest) :
    unescape? quote ('\\' :: letter :: (ds ++ rest)) = none := by
  by_cases hlength : (ds ++ rest).length < width
  · exact unescape?_code_short hquote hletter hlength
  · -- The text is long enough, so that a character that is no digit is read as one.
    have hshort := h.short
    rw [List.length_append] at hlength
    match rest, h.ends with
    | [], _ => simp only [List.length_nil] at hlength; omega
    | c :: rest, hends =>
        have hvalue : digitValue? 16 c = none := digitValue?_eq_none (hends c rfl) (by decide)
        let k := width - ds.length - 1
        have hnone : hexChar? (ds ++ c :: rest.take k) = none := by
          unfold hexChar?
          rw [digits?_eq_none hvalue, Option.bind_none]
        have hwidth : (ds ++ c :: rest.take k).length = width := by
          simp only [List.length_append, List.length_cons, List.length_take, k] at hlength ⊢
          omega
        have hbroken :
            unescape? quote ('\\' :: letter :: ((ds ++ c :: rest.take k) ++ rest.drop k)) = none :=
          unescape?_code_none (hwidth ▸ hletter) hnone
        rw [List.append_assoc, List.cons_append, List.take_append_drop] at hbroken
        exact hbroken

theorem unescape?_octal_truncated (hquote : quote ∈ quotes) (hne : ds ≠ [])
    (h : Truncated 8 3 ds rest) : unescape? quote ('\\' :: (ds ++ rest)) = none := by
  match ds, hne, h with
  | a :: ds, _, h =>
      have hdigit := h.digits a List.mem_cons_self
      obtain ⟨hx, hu, hU⟩ := ne_of_not_mem_codes (not_mem_codes_of_isDigit hdigit)
      have hsimple := simpleEscape?_of_isDigit hquote hdigit
      obtain ⟨i, hi⟩ := hdigit
      have hvalue := hi.value (by decide)
      match ds, rest, h with
      | [], [], _ | [], [_], _ | [_], [], _ => simp [unescape?, hsimple]
      | [], b :: c :: rest, h =>
          have hb : digitValue? 8 b = none := digitValue?_eq_none (h.ends b rfl) (by decide)
          simp [unescape?, hsimple, hx, hu, hU, hvalue, hb]
      | [b], c :: rest, h =>
          have hc : digitValue? 8 c = none := digitValue?_eq_none (h.ends c rfl) (by decide)
          simp [unescape?, hsimple, hx, hu, hU, hvalue, hc]
      | _ :: _ :: _, _, h =>
          have hshort := h.short
          simp only [List.length_cons] at hshort
          omega

theorem unescape?_of_broken (hquote : quote ∈ quotes) (h : Broken quote body) :
    unescape? quote body = none := by
  cases h with
  | bare => simp [unescape?]
  | @unknown letter rest hknown hcode hdigit =>
      obtain ⟨hx, hu, hU⟩ := ne_of_not_mem_codes hcode
      have hsimple : simpleEscape? quote letter = none := by
        refine simpleEscape?_eq_none (fun heq => hknown (Or.inl heq)) fun n hn => ?_
        exact not_not.mp fun hne => hknown (Or.inr ⟨hne, n, hn⟩)
      have hvalue : digitValue? 8 letter = none := digitValue?_eq_none hdigit (by decide)
      simp [unescape?, hx, hu, hU, hsimple, hvalue]
  | code hletter h => exact unescape?_code_truncated hquote hletter h
  | octal hne h => exact unescape?_octal_truncated hquote hne h
  | @number letter ds rest n hletter h hn =>
      refine unescape?_number_none hletter h ?_
      unfold Nat.isValidChar
      omega

theorem unescape?_of_faulty (hquote : quote ∈ quotes) (h : Faulty quote body) :
    unescape? quote body = none := by
  obtain ⟨pieces, rest, hpieces, hbroken, rfl⟩ := h
  induction pieces with
  | nil => exact unescape?_of_broken hquote hbroken
  | cons piece pieces ih =>
      obtain ⟨hpiece, hpieces⟩ := List.forall_mem_cons.mp hpieces
      rw [List.flatten_cons, List.append_assoc]
      exact unescape?_append_none hquote hpiece (ih hpieces)

theorem Faulty.append (hpiece : Piece quote piece) (h : Faulty quote rest) :
    Faulty quote (piece ++ rest) := by
  obtain ⟨pieces, broken, hpieces, hbroken, rfl⟩ := h
  refine ⟨piece :: pieces, broken, List.forall_mem_cons.mpr ⟨hpiece, hpieces⟩, hbroken, ?_⟩
  rw [List.flatten_cons, List.append_assoc]

theorem unescape?_eq_none_iff (hquote : quote ∈ quotes) (body : List Char) :
    unescape? quote body = none ↔ Faulty quote body := by
  refine ⟨fun hnone => ?_, unescape?_of_faulty hquote⟩
  induction hlength : body.length using Nat.strong_induction_on generalizing body with
  | _ length ih =>
      cases body with
      | nil => simp [unescape?] at hnone
      | cons c cs =>
          rcases opens_or_broken hquote c cs with
            ⟨piece, d, rest, hpiece, hreads, hne, heq⟩ | hbroken
          · rw [heq] at hnone hlength ⊢
            rw [hreads, Option.map_eq_none_iff] at hnone
            have hlt : rest.length < length := by
              have hpos := List.length_pos_iff.mpr hne
              rw [List.length_append] at hlength
              omega
            exact (ih rest.length hlt rest hnone rfl).append hpiece
          · exact ⟨[], c :: cs, by simp, hbroken, rfl⟩

end Broken
/-!
# Literals
-/

section Literals

variable {quote : Char} {body : List Char}

theorem between?_enclosed (quote : Char) (body : List Char) :
    between? quote (enclosed quote body).toList = some body := by
  unfold enclosed between?
  rw [String.toList_ofList]
  simp

theorem string?_interpreted (body : List Char) :
    string? (enclosed '"' body) = (unescape? '"' body).map String.ofList := by
  have hraw : between? '`' (enclosed '"' body).toList = none := by
    unfold enclosed between?
    rw [String.toList_ofList]
    simp
  unfold string?
  rw [hraw, between?_enclosed, Option.map_eq_bind]
  rfl

theorem string?_raw (body : List Char) :
    string? (enclosed '`' body) = some (String.ofList (body.filter (· != '\r'))) := by
  unfold string?
  rw [between?_enclosed]

theorem rune?_enclosed (body : List Char) :
    rune? (enclosed '\'' body) = (unescape? '\'' body).bind fun cs =>
      match cs with
      | [c] => some (c.toNat : Int)
      | _ => none := by
  unfold rune?
  rw [between?_enclosed]
  rfl

/-- String and rune literals are read as what they are written for, raw ones as their text without
carriage returns, and the ones that are refused are those with a broken escape. -/
theorem literals_decode (s : String) (c : Char) (body : List Char) :
    (Spelled '"' body s.toList -> string? (enclosed '"' body) = some s) ∧
      (Spelling '\'' body c -> rune? (enclosed '\'' body) = some (c.toNat : Int)) ∧
      string? (enclosed '`' body) = some (String.ofList (body.filter (· != '\r'))) ∧
      (string? (enclosed '"' body) = none ↔ Faulty '"' body) ∧
      (Faulty '\'' body -> rune? (enclosed '\'' body) = none) := by
  refine ⟨fun hspelled => ?_, fun hspelling => ?_, string?_raw body, ?_, fun hfaulty => ?_⟩
  · rw [string?_interpreted, unescape?_of_spelled (by decide) hspelled, Option.map_some,
      String.ofList_toList]
  · rw [rune?_enclosed, (hspelling.reads (by decide)).alone, Option.bind_some]
  · rw [string?_interpreted, Option.map_eq_none_iff, unescape?_eq_none_iff (by decide)]
  · rw [rune?_enclosed, unescape?_of_faulty (by decide) hfaulty, Option.bind_none]

/-- Every kind of escape in one literal, a rune written by its number, and a surrogate. -/
theorem literals_decode_mixed :
    string? (enclosed '"' "a\\t\\\"\\u00E9\\U0001f600\\x41\\101".toList) = some "a\t\"é😀AA" ∧
      rune? (enclosed '\'' "\\u00e9".toList) = some 233 ∧
      string? (enclosed '`' "a\r\n".toList) = some "a\n" ∧
      string? (enclosed '"' "a\\ud800b".toList) = none ∧
      rune? (enclosed '\'' "a\\ud800b".toList) = none := by
  have hspelled : Spelled '"' "a\\t\\\"\\u00E9\\U0001f600\\x41\\101".toList
      "a\t\"é😀AA".toList := by
    refine ⟨["a".toList, "\\t".toList, "\\\"".toList, "\\u00E9".toList, "\\U0001f600".toList,
      "\\x41".toList, "\\101".toList], ?_, by decide⟩
    refine .cons ?_ (.cons ?_ (.cons .delimiter (.cons ?_ (.cons ?_ (.cons ?_ (.cons ?_ .nil))))))
    · exact .plain (by decide) (by decide) (by decide)
    · exact .escape (by decide) (by decide)
    · exact .code (by decide) ⟨by decide, [0, 0, 14, 9], by decide, rfl⟩ (by decide)
    · exact .code (by decide) ⟨by decide, [0, 0, 0, 1, 15, 6, 0, 0], by decide, rfl⟩ (by decide)
    · exact .code (by decide) ⟨by decide, [4, 1], by decide, rfl⟩ (by decide)
    · exact .octal rfl ⟨by decide, [1, 0, 1], by decide, rfl⟩ (by decide)
  have hspelling : Spelling '\'' "\\u00e9".toList 'é' :=
    .code (by decide) ⟨by decide, [0, 0, 14, 9], by decide, rfl⟩ (by decide)
  have hfaulty : forall quote, Faulty quote "a\\ud800b".toList := by
    intro quote
    have hpiece : Piece quote "a".toList := .plain (by decide)
    have hcode : ('u', "d800".toList.length) ∈ codes := by decide
    have hbroken : Broken quote "\\ud800b".toList :=
      .number hcode ⟨by decide, [13, 8, 0, 0], by decide, rfl⟩ (by decide)
    exact ⟨["a".toList], _, List.forall_mem_singleton.mpr hpiece, hbroken, by decide⟩
  refine ⟨(literals_decode _ 'a' _).1 hspelled, (literals_decode "" _ _).2.1 hspelling, ?_,
    (literals_decode "" 'a' _).2.2.2.1.mpr (hfaulty _),
    (literals_decode "" 'a' _).2.2.2.2 (hfaulty _)⟩
  rw [(literals_decode "" 'a' "a\r\n".toList).2.2.1]
  decide

end Literals
end Literal
end GoAtlas
