import GoAtlas.Text.Printable

/-!
# Quoted text

Text between double quotes with everything escaped that would not show. Messages and
constants print strings in this form.
-/

namespace GoAtlas
namespace Text

def hexDigits (n : Nat) : String :=
  String.ofList (Nat.toDigits 16 n)

def escapeChar (c : Char) : String :=
  match c with
  | '"' => "\\\""
  | '\\' => "\\\\"
  | '\n' => "\\n"
  | '\r' => "\\r"
  | '\t' => "\\t"
  | c =>
      if c.toNat == 0 then "\\0"
      else if isPrintable c then String.singleton c
      else "\\u\x7b" ++ hexDigits c.toNat ++ "\x7d"

def quote (s : String) : String :=
  "\"" ++ String.join (s.toList.map escapeChar) ++ "\""

end Text
end GoAtlas
