/-!
# Cutting text at characters
-/

namespace GoAtlas
namespace Text

/-- The pieces between separators; never empty, and empty pieces are kept. -/
def pieces (sep : Char) : List Char -> List (List Char)
  | [] => [[]]
  | c :: rest =>
      if c == sep then [] :: pieces sep rest
      else
        match pieces sep rest with
        | piece :: more => (c :: piece) :: more
        | [] => [[c]]

def cutFirst? (sep : Char) : List Char -> Option (List Char × List Char)
  | [] => none
  | c :: rest =>
      if c == sep then some ([], rest)
      else (cutFirst? sep rest).map fun (before, after) => (c :: before, after)

def cutLast? (sep : Char) : List Char -> Option (List Char × List Char)
  | [] => none
  | c :: rest =>
      match cutLast? sep rest with
      | some (before, after) => some (c :: before, after)
      | none => if c == sep then some ([], rest) else none

def lastPiece (sep : Char) (cs : List Char) : List Char :=
  match cutLast? sep cs with
  | some (_, after) => after
  | none => cs

def pieceStrings (sep : Char) (s : String) : List String :=
  (pieces sep s.toList).map String.ofList

def endsWith (s suffix : String) : Bool :=
  suffix.toList.isSuffixOf s.toList

def startsWith (s start : String) : Bool :=
  start.toList.isPrefixOf s.toList

end Text
end GoAtlas
