/-!
# Bytes and characters

Source files are bytes. `glyphs` reads them as UTF-8 and keeps each byte that is no part of
a character as a glyph of its own, so that every offset stays a byte offset. `lossy` is the
view for printing, with one replacement character for each maximal piece of a broken
character.
-/

namespace GoAtlas
namespace Text

abbrev Bytes := List UInt8

/-- One character of a source file, or one byte that belongs to none. -/
structure Glyph where
  char : Char
  size : Nat
  valid : Bool
  deriving Repr, DecidableEq

def replacement : Char := Char.ofNat 0xfffd

/-- What a first byte announces: how many bytes follow, and the range of the second. -/
structure Lead where
  follow : Nat
  low : Nat
  high : Nat
  bits : Nat

def Lead.ofByte? (b : UInt8) : Option Lead :=
  let n := b.toNat
  if n < 0x80 then some ⟨0, 0x80, 0xbf, n⟩
  else if 0xc2 ≤ n && n ≤ 0xdf then some ⟨1, 0x80, 0xbf, n - 0xc0⟩
  else if n == 0xe0 then some ⟨2, 0xa0, 0xbf, 0⟩
  else if n == 0xed then some ⟨2, 0x80, 0x9f, 0xd⟩
  else if 0xe1 ≤ n && n ≤ 0xef then some ⟨2, 0x80, 0xbf, n - 0xe0⟩
  else if n == 0xf0 then some ⟨3, 0x90, 0xbf, 0⟩
  else if n == 0xf4 then some ⟨3, 0x80, 0x8f, 4⟩
  else if 0xf1 ≤ n && n ≤ 0xf3 then some ⟨3, 0x80, 0xbf, n - 0xf0⟩
  else none

/-- The following bytes that fit, in order: at most `need` of them, the first within the
given range and the others within `80`–`bf`. -/
def following : Nat -> Nat -> Nat -> Bytes -> List Nat
  | 0, _, _, _ => []
  | _, _, _, [] => []
  | need + 1, low, high, b :: rest =>
      if low ≤ b.toNat && b.toNat ≤ high then
        b.toNat :: following need 0x80 0xbf rest
      else []

/-- The character at the front with its length in bytes, or the length of the piece that
cannot become one. -/
def front (b : UInt8) (rest : Bytes) : Except Nat (Char × Nat) :=
  match Lead.ofByte? b with
  | none => .error 1
  | some lead =>
      let tail := following lead.follow lead.low lead.high rest
      if tail.length == lead.follow then
        .ok (Char.ofNat (tail.foldl (fun n t => n * 64 + (t - 0x80)) lead.bits), lead.follow + 1)
      else .error (tail.length + 1)

/-- `skip` counts the bytes that belong to a character already read. -/
def glyphsFrom : Nat -> Bytes -> List Glyph
  | _, [] => []
  | skip + 1, _ :: rest => glyphsFrom skip rest
  | 0, b :: rest =>
      match front b rest with
      | .ok (c, size) => ⟨c, size, true⟩ :: glyphsFrom (size - 1) rest
      | .error _ => ⟨replacement, 1, false⟩ :: glyphsFrom 0 rest

def glyphs (bytes : Bytes) : List Glyph :=
  glyphsFrom 0 bytes

def textOf? (gs : List Glyph) : Option String :=
  if gs.all (·.valid) then some (String.ofList (gs.map (·.char))) else none

def decode? (bytes : Bytes) : Option String :=
  textOf? (glyphs bytes)

def lossyFrom : Nat -> Bytes -> List Char
  | _, [] => []
  | skip + 1, _ :: rest => lossyFrom skip rest
  | 0, b :: rest =>
      match front b rest with
      | .ok (c, size) => c :: lossyFrom (size - 1) rest
      | .error size => replacement :: lossyFrom (size - 1) rest

def lossy (bytes : Bytes) : String :=
  String.ofList (lossyFrom 0 bytes)

def encode (s : String) : Bytes :=
  s.toUTF8.toList

def byteSize (s : String) : Nat :=
  s.utf8ByteSize

end Text
end GoAtlas
