/-!
# Strings in configuration files

A string is written in the first form that needs no escapes: in double quotes, in single
quotes, in three double quotes, in three single quotes. If none will do it is escaped.
-/

namespace GoAtlas
namespace Toml

structure Traits where
  hasNewline : Bool
  hasBackslash : Bool
  /-- Control characters other than tab and newline. -/
  hasControl : Bool
  /-- The longest runs of single and of double quotes. -/
  single : Nat
  double : Nat

def longestRun (q : Char) (run : Nat) : List Char -> Nat
  | [] => run
  | c :: rest => if c == q then longestRun q (run + 1) rest else max run (longestRun q 0 rest)

def isControl (c : Char) : Bool :=
  c.toNat < 0x20 || c.toNat == 0x7f

def Traits.ofChars (cs : List Char) : Traits where
  hasNewline := cs.contains '\n'
  hasBackslash := cs.contains '\\'
  hasControl := cs.any fun c => isControl c && c != '\t' && c != '\n'
  single := longestRun '\'' 0 cs
  double := longestRun '"' 0 cs

inductive Quoting where
  | basic
  | literal
  | longBasic
  | longLiteral
  deriving Repr, DecidableEq

def Quoting.choose (t : Traits) : Quoting :=
  if !t.hasControl && !t.hasBackslash && t.double == 0 && !t.hasNewline then .basic
  else if !t.hasControl && t.single == 0 && !t.hasNewline then .literal
  else if !t.hasControl && !t.hasBackslash && t.double ≤ 2 then .longBasic
  else if !t.hasControl && t.single ≤ 2 then .longLiteral
  else if t.hasNewline then .longBasic
  else .basic

def hexUpper (n : Nat) : Char :=
  if n < 10 then Char.ofNat ('0'.toNat + n) else Char.ofNat ('A'.toNat + n - 10)

def escapeChar (long : Bool) (c : Char) : List Char :=
  if c == '\x08' then ['\\', 'b']
  else if c == '\t' then ['\\', 't']
  else if c == '\n' then if long then ['\n'] else ['\\', 'n']
  else if c == '\x0c' then ['\\', 'f']
  else if c == '\r' then ['\\', 'r']
  else if c == '\\' then ['\\', '\\']
  else if isControl c then
    ['\\', 'u', '0', '0', hexUpper (c.toNat / 16), hexUpper (c.toNat % 16)]
  else [c]

/-- Escapes text; `run` counts the quotes right before. A long string keeps two quotes in a
row. -/
def escapeText (long : Bool) (run : Nat) : List Char -> List Char
  | [] => []
  | c :: rest =>
      if c == '"' then
        if long && run < 2 then '"' :: escapeText long (run + 1) rest
        else '\\' :: '"' :: escapeText long 0 rest
      else escapeChar long c ++ escapeText long 0 rest

def quote (s : String) : String :=
  let cs := s.toList
  let t := Traits.ofChars cs
  let first := if t.hasNewline then ['\n'] else []
  String.ofList
    (match Quoting.choose t with
    | .basic => '"' :: escapeText false 0 cs ++ ['"']
    | .literal => '\'' :: cs ++ ['\'']
    | .longBasic => ['"', '"', '"'] ++ first ++ escapeText true 0 cs ++ ['"', '"', '"']
    | .longLiteral => ['\'', '\'', '\''] ++ first ++ cs ++ ['\'', '\'', '\''])

end Toml
end GoAtlas
