import GoAtlas.Text.Utf8

/-!
# Glyphs and their bytes

The glyphs of a file take up its bytes from the first to the last, so a place between two
glyphs is a place between two bytes.  Where all glyphs of a run are characters, the bytes of
the run are the encoded text.
-/

namespace GoAtlas
namespace Text

def width : List Glyph -> Nat
  | [] => 0
  | g :: gs => g.size + width gs

@[simp] theorem width_nil : width [] = 0 := rfl

@[simp] theorem width_cons (g : Glyph) (gs : List Glyph) :
    width (g :: gs) = g.size + width gs := rfl

@[simp] theorem width_append (front back : List Glyph) :
    width (front ++ back) = width front + width back := by
  induction front with
  | nil => simp
  | cons g rest ih => simp [ih, Nat.add_assoc]

/-!
# One glyph after another
-/

theorem glyphsFrom_eq (skip : Nat) (bytes : Bytes) :
    glyphsFrom skip bytes = glyphs (bytes.drop skip) := by
  induction bytes generalizing skip with
  | nil => simp [glyphs, glyphsFrom]
  | cons b rest ih =>
      cases skip with
      | zero => rfl
      | succ skip => exact ih skip

theorem glyphs_ok {b : UInt8} {rest : Bytes} {c : Char} {size : Nat}
    (h : front b rest = .ok (c, size)) :
    glyphs (b :: rest) = ⟨c, size, true⟩ :: glyphs (rest.drop (size - 1)) := by
  rw [← glyphsFrom_eq]
  simp [glyphs, glyphsFrom, h]

theorem glyphs_error {b : UInt8} {rest : Bytes} {n : Nat} (h : front b rest = .error n) :
    glyphs (b :: rest) = ⟨replacement, 1, false⟩ :: glyphs rest := by
  simp [glyphs, glyphsFrom, h]

theorem length_following_le (need low high : Nat) (rest : Bytes) :
    (following need low high rest).length ≤ rest.length := by
  induction rest generalizing need low high with
  | nil => cases need <;> simp [following]
  | cons b rest ih =>
      cases need with
      | zero => simp [following]
      | succ need =>
          rw [following]
          split
          · simpa using ih need 0x80 0xbf
          · simp

theorem size_of_front {b : UInt8} {rest : Bytes} {c : Char} {size : Nat}
    (h : front b rest = .ok (c, size)) : 0 < size ∧ size ≤ rest.length + 1 := by
  unfold front at h
  split at h
  · cases h
  next lead _ =>
    dsimp only at h
    split at h
    next hlength =>
      cases h
      have hle := length_following_le lead.follow lead.low lead.high rest
      rw [beq_iff_eq] at hlength
      omega
    · cases h

theorem glyphs_drop_of_cons {bytes : Bytes} {g : Glyph} {gs : List Glyph}
    (h : glyphs bytes = g :: gs) :
    0 < g.size ∧ g.size ≤ bytes.length ∧ glyphs (bytes.drop g.size) = gs := by
  cases bytes with
  | nil => cases h
  | cons b rest =>
      cases hfront : front b rest with
      | error n =>
          rw [glyphs_error hfront] at h
          cases h
          simp
      | ok r =>
          obtain ⟨c, size⟩ := r
          rw [glyphs_ok hfront] at h
          cases h
          obtain ⟨hpos, hle⟩ := size_of_front hfront
          obtain ⟨n, rfl⟩ : exists n, size = n + 1 := ⟨size - 1, by omega⟩
          exact ⟨hpos, hle, rfl⟩

theorem glyphs_drop {bytes : Bytes} {front back : List Glyph} (h : glyphs bytes = front ++ back) :
    width front ≤ bytes.length ∧ glyphs (bytes.drop (width front)) = back := by
  induction front generalizing bytes with
  | nil => simpa using h
  | cons g gs ih =>
      obtain ⟨_, hle, hdrop⟩ := glyphs_drop_of_cons h
      obtain ⟨hrest, hback⟩ := ih hdrop
      rw [List.length_drop] at hrest
      rw [List.drop_drop] at hback
      rw [width_cons]
      exact ⟨by omega, hback⟩

/-!
# Encoded text
-/

theorem toNat_val_ofNat {n : Nat} (h : n < 0xd800 ∨ 0xdfff < n ∧ n < 0x110000) :
    (Char.ofNat n).val.toNat = n := by
  have hvalid : n.isValidChar := h
  unfold Char.ofNat
  rw [dif_pos hvalid]
  rfl

theorem byte_eq {b : UInt8} {n : Nat} (h : b.toNat = n % 256) : b = UInt8.ofNat n := by
  apply UInt8.toNat_inj.mp
  rw [UInt8.toNat_ofNat', h]

/-- What a first byte of value `n` announces, by how many bytes follow.  Characters are written
in the shortest way, and none of them is a surrogate or beyond the last. -/
inductive Lead.Announces (n : Nat) : Lead -> Prop where
  | alone (h : n < 0x80) : Announces n ⟨0, 0x80, 0xbf, n⟩
  | one (hn : 0xc2 ≤ n ∧ n ≤ 0xdf) : Announces n ⟨1, 0x80, 0xbf, n - 0xc0⟩
  | two {low high bits : Nat} (hn : 0xe0 ≤ n ∧ n ≤ 0xef) (hbits : bits = n - 0xe0)
      (hlow : 0x80 ≤ low) (hhigh : high ≤ 0xbf) (hshort : n = 0xe0 -> 0xa0 ≤ low)
      (hsurrogate : n = 0xed -> high ≤ 0x9f) : Announces n ⟨2, low, high, bits⟩
  | three {low high bits : Nat} (hn : 0xf0 ≤ n ∧ n ≤ 0xf4) (hbits : bits = n - 0xf0)
      (hlow : 0x80 ≤ low) (hhigh : high ≤ 0xbf) (hshort : n = 0xf0 -> 0x90 ≤ low)
      (hlast : n = 0xf4 -> high ≤ 0x8f) : Announces n ⟨3, low, high, bits⟩

theorem announces_of_byte {b : UInt8} {lead : Lead} (h : Lead.ofByte? b = some lead) :
    Lead.Announces b.toNat lead := by
  unfold Lead.ofByte? at h
  simp only [Bool.and_eq_true, decide_eq_true_eq, beq_iff_eq] at h
  split at h
  · cases h
    exact .alone (by omega)
  split at h
  · cases h
    exact .one (by omega)
  split at h
  · cases h
    exact .two (by omega) (by omega) (by omega) (by omega) (by omega) (by omega)
  split at h
  · cases h
    exact .two (by omega) (by omega) (by omega) (by omega) (by omega) (by omega)
  split at h
  · cases h
    exact .two (by omega) (by omega) (by omega) (by omega) (by omega) (by omega)
  split at h
  · cases h
    exact .three (by omega) (by omega) (by omega) (by omega) (by omega) (by omega)
  split at h
  · cases h
    exact .three (by omega) (by omega) (by omega) (by omega) (by omega) (by omega)
  split at h
  · cases h
    exact .three (by omega) (by omega) (by omega) (by omega) (by omega) (by omega)
  · cases h

theorem following_succ {need low high : Nat} {rest : Bytes}
    (h : (following (need + 1) low high rest).length = need + 1) :
    exists b more, rest = b :: more ∧ low ≤ b.toNat ∧ b.toNat ≤ high ∧
      following (need + 1) low high rest = b.toNat :: following need 0x80 0xbf more ∧
      (following need 0x80 0xbf more).length = need := by
  cases rest with
  | nil => simp [following] at h
  | cons b more =>
      rw [following] at h ⊢
      split at h
      next hb =>
        simp only [Bool.and_eq_true, decide_eq_true_eq] at hb
        rw [if_pos (by simpa using hb)]
        exact ⟨b, more, rfl, hb.1, hb.2, rfl, by simpa using h⟩
      · simp at h

section Encodings

variable {b t u v : UInt8}

theorem encode_one (hb : b.toNat < 0x80) : String.utf8EncodeChar (Char.ofNat b.toNat) = [b] := by
  have hc := toNat_val_ofNat (n := b.toNat) (by omega)
  simp only [String.utf8EncodeChar, hc]
  rw [if_pos (by omega)]
  simp

theorem encode_two (hb : 0xc2 ≤ b.toNat ∧ b.toNat ≤ 0xdf) (ht : 0x80 ≤ t.toNat ∧ t.toNat ≤ 0xbf) :
    String.utf8EncodeChar (Char.ofNat ((b.toNat - 0xc0) * 64 + (t.toNat - 0x80))) = [b, t] := by
  have hc := toNat_val_ofNat (n := (b.toNat - 0xc0) * 64 + (t.toNat - 0x80)) (by omega)
  simp only [String.utf8EncodeChar, hc]
  rw [if_neg (by omega), if_pos (by omega)]
  simp only [List.cons.injEq, and_true]
  exact ⟨(byte_eq (by omega)).symm, (byte_eq (by omega)).symm⟩

theorem encode_three (hb : 0xe0 ≤ b.toNat ∧ b.toNat ≤ 0xef)
    (ht : 0x80 ≤ t.toNat ∧ t.toNat ≤ 0xbf) (hu : 0x80 ≤ u.toNat ∧ u.toNat ≤ 0xbf)
    (hshort : b.toNat = 0xe0 -> 0xa0 ≤ t.toNat) (hsurrogate : b.toNat = 0xed -> t.toNat ≤ 0x9f) :
    String.utf8EncodeChar (Char.ofNat
      (((b.toNat - 0xe0) * 64 + (t.toNat - 0x80)) * 64 + (u.toNat - 0x80))) = [b, t, u] := by
  have hc := toNat_val_ofNat
    (n := ((b.toNat - 0xe0) * 64 + (t.toNat - 0x80)) * 64 + (u.toNat - 0x80)) (by omega)
  simp only [String.utf8EncodeChar, hc]
  rw [if_neg (by omega), if_neg (by omega), if_pos (by omega)]
  simp only [List.cons.injEq, and_true]
  exact ⟨(byte_eq (by omega)).symm, (byte_eq (by omega)).symm, (byte_eq (by omega)).symm⟩

theorem encode_four (hb : 0xf0 ≤ b.toNat ∧ b.toNat ≤ 0xf4)
    (ht : 0x80 ≤ t.toNat ∧ t.toNat ≤ 0xbf) (hu : 0x80 ≤ u.toNat ∧ u.toNat ≤ 0xbf)
    (hv : 0x80 ≤ v.toNat ∧ v.toNat ≤ 0xbf) (hshort : b.toNat = 0xf0 -> 0x90 ≤ t.toNat)
    (hlast : b.toNat = 0xf4 -> t.toNat ≤ 0x8f) :
    String.utf8EncodeChar (Char.ofNat
      ((((b.toNat - 0xf0) * 64 + (t.toNat - 0x80)) * 64 + (u.toNat - 0x80)) * 64 +
        (v.toNat - 0x80))) = [b, t, u, v] := by
  have hc := toNat_val_ofNat
    (n := (((b.toNat - 0xf0) * 64 + (t.toNat - 0x80)) * 64 + (u.toNat - 0x80)) * 64 +
      (v.toNat - 0x80)) (by omega)
  simp only [String.utf8EncodeChar, hc]
  rw [if_neg (by omega), if_neg (by omega), if_neg (by omega)]
  simp only [List.cons.injEq, and_true]
  exact ⟨(byte_eq (by omega)).symm, (byte_eq (by omega)).symm, (byte_eq (by omega)).symm,
    (byte_eq (by omega)).symm⟩

end Encodings

theorem take_of_front {b : UInt8} {rest : Bytes} {c : Char} {size : Nat}
    (h : front b rest = .ok (c, size)) : (b :: rest).take size = String.utf8EncodeChar c := by
  unfold front at h
  split at h
  · cases h
  next lead hlead =>
    dsimp only at h
    split at h
    next hlength =>
      rw [beq_iff_eq] at hlength
      cases h
      cases announces_of_byte hlead with
      | alone hb => exact (encode_one hb).symm
      | one hb =>
          obtain ⟨t, more, rfl, ht, ht', heq, _⟩ := following_succ hlength
          rw [heq]
          exact (encode_two hb ⟨ht, ht'⟩).symm
      | two hb hbits hlow hhigh hshort hsurrogate =>
          obtain ⟨t, more, rfl, ht, ht', heq, hlength'⟩ := following_succ hlength
          obtain ⟨u, more, rfl, hu, hu', heq', _⟩ := following_succ hlength'
          rw [heq, heq']
          simp only [hbits]
          exact (encode_three hb ⟨Nat.le_trans hlow ht, Nat.le_trans ht' hhigh⟩ ⟨hu, hu'⟩
            (fun hn => Nat.le_trans (hshort hn) ht)
            (fun hn => Nat.le_trans ht' (hsurrogate hn))).symm
      | three hb hbits hlow hhigh hshort hlast =>
          obtain ⟨t, more, rfl, ht, ht', heq, hlength'⟩ := following_succ hlength
          obtain ⟨u, more, rfl, hu, hu', heq', hlength''⟩ := following_succ hlength'
          obtain ⟨v, more, rfl, hv, hv', heq'', _⟩ := following_succ hlength''
          rw [heq, heq', heq'']
          simp only [hbits]
          exact (encode_four hb ⟨Nat.le_trans hlow ht, Nat.le_trans ht' hhigh⟩ ⟨hu, hu'⟩ ⟨hv, hv'⟩
            (fun hn => Nat.le_trans (hshort hn) ht) (fun hn => Nat.le_trans ht' (hlast hn))).symm
    · cases h

theorem toList_loop_eq (bytes : ByteArray) (n : Nat) :
    forall i, bytes.size - i = n -> forall read,
      ByteArray.toList.loop bytes i read = read.reverse ++ bytes.data.toList.drop i := by
  induction n with
  | zero =>
      intro i hi read
      have hlength : bytes.data.toList.length ≤ i := by simpa using Nat.le_of_sub_eq_zero hi
      rw [ByteArray.toList.loop, if_neg (by omega), List.drop_eq_nil_of_le hlength, List.append_nil]
  | succ n ih =>
      intro i hi read
      have hlt : i < bytes.size := by omega
      have hlength : i < bytes.data.toList.length := by simpa using hlt
      rw [ByteArray.toList.loop, if_pos hlt, ih (i + 1) (by omega), List.reverse_cons,
        List.append_assoc, List.drop_eq_getElem_cons hlength]
      simp [ByteArray.get!, hlt]

theorem encode_ofList (cs : List Char) :
    encode (String.ofList cs) = cs.flatMap String.utf8EncodeChar := by
  show (String.ofList cs).toByteArray.toList = _
  rw [String.toByteArray_ofList, List.utf8Encode]
  unfold ByteArray.toList
  rw [toList_loop_eq _ _ 0 rfl]
  simp

theorem take_of_valid {bytes : Bytes} {run back : List Glyph} (h : glyphs bytes = run ++ back)
    (hvalid : forall g, g ∈ run -> g.valid = true) :
    bytes.take (width run) = encode (String.ofList (run.map (·.char))) := by
  rw [encode_ofList]
  induction run generalizing bytes with
  | nil => simp
  | cons g gs ih =>
      obtain ⟨hg, hgs⟩ := List.forall_mem_cons.mp hvalid
      obtain ⟨_, _, hdrop⟩ := glyphs_drop_of_cons h
      have hrest := ih hdrop hgs
      have hfirst : bytes.take g.size = String.utf8EncodeChar g.char := by
        cases bytes with
        | nil => cases h
        | cons b rest =>
            cases hfront : front b rest with
            | error n =>
                rw [glyphs_error hfront] at h
                rw [← (List.cons.inj h).1] at hg
                cases hg
            | ok r =>
                rw [glyphs_ok hfront] at h
                rw [← (List.cons.inj h).1]
                exact take_of_front hfront
      rw [width_cons, List.take_add, hfirst, hrest, List.map_cons, List.flatMap_cons]

end Text
end GoAtlas
