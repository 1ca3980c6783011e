import GoAtlas.Proofs.Check.IntegerConstants
import GoAtlas.Proofs.Constant.Spellings

/-!
# Bytes in string literals

The bytes that the pieces of a string literal are written for, and what becomes of them.  An escape
in two hexadecimal or three octal digits is written for one byte, but it is read as the character of
that number.  The two are the same below 128.  From there on the character has two bytes, so that
the value of the literal and its length are not those of the bytes.
-/

namespace GoAtlas
namespace Literal

/-!
# Bytes and characters
-/

/-- A piece of a string literal and the bytes that it is written for: those of a character, or the
one byte that an escape is the number of. -/
inductive Encodes : List Char -> List UInt8 -> Prop where
  | char {piece : List Char} {c : Char} (h : Spelling '"' piece c) :
      Encodes piece (String.utf8EncodeChar c)
  | hex {ds : List Char} {n : Nat} (hlength : ds.length = 2) (h : Spells 16 ds n) :
      Encodes ('\\' :: 'x' :: ds) [UInt8.ofNat n]
  | octal {ds : List Char} {n : Nat} (hlength : ds.length = 3) (h : Spells 8 ds n) (hn : n < 256) :
      Encodes ('\\' :: ds) [UInt8.ofNat n]

def isHigh : List UInt8 -> Bool
  | [b] => 128 ≤ b.toNat
  | _ => false

def Taken (part : List UInt8) (c : Char) : Prop :=
  part = String.utf8EncodeChar c ∨ part = [UInt8.ofNat c.toNat] ∧ c.toNat < 256

section Bytes

variable {c : Char} {part : List UInt8} {parts : List (List UInt8)} {cs : List Char} {s : String}

theorem utf8EncodeChar_of_lt (h : c.toNat < 128) :
    String.utf8EncodeChar c = [UInt8.ofNat c.toNat] := by
  have hle : c.val.toNat ≤ 127 := Nat.le_of_lt_succ h
  unfold String.utf8EncodeChar
  dsimp only
  rw [if_pos hle]
  rfl

theorem utf8Size_of_le (h : 128 ≤ c.toNat) (hlt : c.toNat < 256) : c.utf8Size = 2 := by
  have hle : ¬ c.val.toNat ≤ 127 := Nat.not_le_of_lt h
  have hle' : c.val.toNat ≤ 2047 := Nat.le_trans (Nat.le_of_lt hlt) (by decide)
  rw [← String.length_utf8EncodeChar]
  unfold String.utf8EncodeChar
  dsimp only
  rw [if_neg hle, if_pos hle']
  rfl

theorem isHigh_utf8EncodeChar (c : Char) : isHigh (String.utf8EncodeChar c) = false := by
  by_cases h : c.toNat < 128
  · rw [utf8EncodeChar_of_lt h]
    simp only [isHigh, UInt8.toNat_ofNat', decide_eq_false_iff_not]
    omega
  · have hle : ¬ c.val.toNat ≤ 127 := fun hle => h (Nat.lt_succ_of_le hle)
    unfold String.utf8EncodeChar
    dsimp only
    rw [if_neg hle]
    split
    · rfl
    · split
      · rfl
      · rfl

theorem isHigh_byte (h : c.toNat < 256) :
    isHigh [UInt8.ofNat c.toNat] = decide (128 ≤ c.toNat) := by
  simp only [isHigh, UInt8.toNat_ofNat']
  rw [Nat.mod_eq_of_lt h]

/-- Bytes that are taken for a character are its own, unless they are one high byte. -/
theorem Taken.encode (h : Taken part c) (hhigh : isHigh part = false) :
    String.utf8EncodeChar c = part := by
  rcases h with rfl | ⟨rfl, hlt⟩
  · rfl
  · rw [isHigh_byte hlt, decide_eq_false_iff_not, Nat.not_le] at hhigh
    exact utf8EncodeChar_of_lt hhigh

theorem Taken.length (h : Taken part c) :
    (String.utf8EncodeChar c).length = part.length + if isHigh part then 1 else 0 := by
  cases hhigh : isHigh part with
  | false =>
      rw [h.encode hhigh]
      rfl
  | true =>
      rcases h with rfl | ⟨rfl, hlt⟩
      · cases hhigh.symm.trans (isHigh_utf8EncodeChar c)
      · rw [isHigh_byte hlt, decide_eq_true_eq] at hhigh
        rw [String.length_utf8EncodeChar, utf8Size_of_le hhigh hlt]
        rfl

theorem byteSize_ofList (cs : List Char) :
    Text.byteSize (String.ofList cs) = (cs.flatMap String.utf8EncodeChar).length := by
  show (String.ofList cs).toByteArray.size = _
  rw [String.toByteArray_ofList, List.utf8Encode, List.size_toByteArray]

theorem byteSize_of_taken (h : List.Forall₂ Taken parts cs) :
    Text.byteSize (String.ofList cs) = parts.flatten.length + parts.countP isHigh := by
  rw [byteSize_ofList]
  induction h with
  | nil => rfl
  | @cons part c parts cs htaken _ ih =>
      rw [List.flatMap_cons, List.length_append, ih, htaken.length, List.flatten_cons,
        List.length_append, List.countP_cons]
      omega

theorem eq_iff_of_taken (h : List.Forall₂ Taken parts cs)
    (hs : s.toByteArray = parts.flatten.toByteArray) :
    String.ofList cs = s ↔ forall part, part ∈ parts -> isHigh part = false := by
  constructor
  · rintro rfl part hpart
    have hsize := byteSize_of_taken h
    have hcount : parts.countP isHigh = 0 := by
      have hbytes : Text.byteSize (String.ofList cs) = parts.flatten.length := by
        show (String.ofList cs).toByteArray.size = _
        rw [hs, List.size_toByteArray]
      omega
    simpa using List.countP_eq_zero.mp hcount part hpart
  · intro hlow
    rw [← String.toByteArray_inj, String.toByteArray_ofList, List.utf8Encode, hs]
    congr 1
    clear hs
    induction h with
    | nil => rfl
    | @cons part c parts cs htaken _ ih =>
        obtain ⟨hpart, hparts⟩ := List.forall_mem_cons.mp hlow
        rw [List.flatMap_cons, htaken.encode hpart, ih hparts, List.flatten_cons]

end Bytes

/-!
# Pieces
-/

section Pieces

variable {piece ds : List Char} {part : List UInt8} {n : Nat}

theorem taken_byte (hn : n < 256) : Taken [UInt8.ofNat n] (Char.ofNat n) := by
  have hvalue : (Char.ofNat n).toNat = n := toNat_ofNat_of_valid (.inl (by omega))
  exact Or.inr ⟨by rw [hvalue], by omega⟩

theorem Encodes.reads (h : Encodes piece part) : exists c, Reads '"' piece c ∧ Taken part c := by
  cases h with
  | @char _ c h => exact ⟨c, h.reads (by decide), Or.inl rfl⟩
  | @hex ds n hlength h =>
      have hn := h.lt_pow (by decide)
      rw [hlength] at hn
      have hletter : ('x', ds.length) ∈ codes := by
        rw [hlength]
        decide
      exact ⟨_, reads_number hletter h (.inl (by omega)), taken_byte hn⟩
  | octal hlength h hn => exact ⟨_, reads_octal (by decide) hlength h, taken_byte hn⟩

end Pieces
end Literal

/-!
# Literals and their lengths
-/

/-- What a string literal that is written for bytes comes to: its value, the characters of the
value, how long it is, when it is the text of the bytes, and what `len` makes of the literal. -/
structure ReadsBytes (literal : String) (parts : List (List UInt8)) (t : String) : Prop where
  value : Literal.string? literal = some t
  characters : List.Forall₂ Literal.Taken parts t.toList
  size : Text.byteSize t = parts.flatten.length + parts.countP Literal.isHigh
  eq_iff : forall s : String, s.toByteArray = parts.flatten.toByteArray ->
    (t = s ↔ forall part, part ∈ parts -> Literal.isHigh part = false)
  len : forall (sc : Scope) (answers : Answers) (links : Links) (p : Progress) (file : String)
    (iota : Option Nat) (call name x : Source.Extent), sc.types.contains "len" = false ->
      name.text = "len" -> x.text = literal ->
        ((sc.eval links file iota (.call call (.ident name) [.string x])).run.outcome answers p).1 =
          .ok (.int (parts.flatten.length + parts.countP Literal.isHigh : Nat), .basic .int)

section Lengths

variable {sc : Scope} {answers : Answers} {links : Links} {p : Progress} {file : String}
  {iota : Option Nat} {call name x : Source.Extent} {t : String} {pieces : List (List Char)}
  {parts : List (List UInt8)}

theorem Scope.eval_len (hlen : sc.types.contains "len" = false) (hname : name.text = "len")
    (hx : Literal.string? x.text = some t) :
    ((sc.eval links file iota (.call call (.ident name) [.string x])).run.outcome answers p).1 =
      .ok (.int (Text.byteSize t), .basic .int) := by
  have hisLen : sc.isLen (.ident name) = true := by
    show (name.text == "len" && !sc.types.contains "len") = true
    rw [hname, hlen]
    rfl
  have hstring : ((sc.eval links file iota (.string x)).run.outcome answers p).1 =
      .ok (.string t, .basic .untypedString) := by
    rw [Scope.eval, hx]
    rfl
  rw [Scope.eval, hisLen, if_pos rfl, Scope.outcome_bind_of_ok hstring]
  rfl

/-- A string literal is read as if each byte in it were a character of that number. -/
theorem readsBytes_of_encodes (h : List.Forall₂ Literal.Encodes pieces parts) :
    exists t, ReadsBytes (Literal.enclosed '"' pieces.flatten) parts t := by
  have hcs : exists cs, List.Forall₂ (Literal.Reads '"') pieces cs ∧
      List.Forall₂ Literal.Taken parts cs := by
    induction h with
    | nil => exact ⟨[], .nil, .nil⟩
    | cons hencodes _ ih =>
        obtain ⟨c, hreads, htaken⟩ := hencodes.reads
        obtain ⟨cs, hpieces, hparts⟩ := ih
        exact ⟨c :: cs, .cons hreads hpieces, .cons htaken hparts⟩
  obtain ⟨cs, hreads, htaken⟩ := hcs
  have hvalue :
      Literal.string? (Literal.enclosed '"' pieces.flatten) = some (String.ofList cs) := by
    rw [Literal.string?_interpreted, Literal.unescape?_flatten hreads, Option.map_some]
  refine ⟨String.ofList cs, hvalue, ?_, Literal.byteSize_of_taken htaken,
    fun s hs => Literal.eq_iff_of_taken htaken hs, ?_⟩
  · rw [String.toList_ofList]
    exact htaken
  · intro sc answers links p file iota call name x hlen hname hx
    rw [Scope.eval_len hlen hname (hx ▸ hvalue), Literal.byteSize_of_taken htaken]

/-- A character that is written by itself, and once more by its two bytes. -/
theorem readsBytes_of_encodes_twice :
    List.Forall₂ Literal.Encodes ["é".toList, "\\xc3".toList, "\\251".toList]
        [[0xc3, 0xa9], [0xc3], [0xa9]] ∧
      ReadsBytes "\"é\\xc3\\251\"" [[0xc3, 0xa9], [0xc3], [0xa9]] "éÃ©" := by
  have hencodes : List.Forall₂ Literal.Encodes ["é".toList, "\\xc3".toList, "\\251".toList]
      [[0xc3, 0xa9], [0xc3], [0xa9]] := by
    refine .cons (.char (.plain (by decide) (by decide) (by decide))) (.cons ?_ (.cons ?_ .nil))
    · exact .hex rfl ⟨by decide, [12, 3], by decide, rfl⟩
    · exact .octal rfl ⟨by decide, [2, 5, 1], by decide, rfl⟩ (by decide)
  obtain ⟨t, ht⟩ := readsBytes_of_encodes hencodes
  have hvalue : Literal.string? "\"é\\xc3\\251\"" = some "éÃ©" := by decide
  cases Option.some.inj (ht.value.symm.trans hvalue)
  exact ⟨hencodes, ht⟩

/-- The two bytes of a character make two characters, and the literal is twice as long. -/
theorem bytes_read_as_characters :
    (List.Forall₂ Literal.Encodes ["\\xc3".toList, "\\xa9".toList] [[0xc3], [0xa9]] ∧
      "é".toByteArray = [[0xc3], [0xa9]].flatten.toByteArray ∧ Text.byteSize "é" = 2) ∧
    Literal.string? "\"\\xc3\\xa9\"" = some "Ã©" ∧
    Literal.string? "\"\\xc3\\xa9\"" ≠ some "é" ∧
    ((checkGo (.ofText "package p\n\nconst N = len(\"\\xc3\\xa9\")\n")).under
        noAnswers).package.consts.map (fun c => (c.name, c.value.toInt?)) = [("N", some 4)] := by
  refine ⟨⟨.cons ?_ (.cons ?_ .nil), by decide, by decide⟩, by decide, by decide, by decide +kernel⟩
  · exact .hex rfl ⟨by decide, [12, 3], by decide, rfl⟩
  · exact .hex rfl ⟨by decide, [10, 9], by decide, rfl⟩

end Lengths
end GoAtlas
