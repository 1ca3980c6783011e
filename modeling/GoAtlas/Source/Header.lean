import GoAtlas.Source.Tree
import GoAtlas.Text.Blank
import GoAtlas.Text.Utf8

/-!
# File headers

A file is left out of its package when a line before the package clause says
`//go:build ignore` or `// +build ignore`. White space between the words may be of any kind,
newlines included.
-/

namespace GoAtlas
namespace Source

def afterText? : List Char -> List Char -> Option (List Char)
  | [], rest => some rest
  | a :: text, c :: rest => if a == c then afterText? text rest else none
  | _ :: _, [] => none

def constraintTail? (cs : List Char) : Option (List Char) :=
  match afterText? "go:build".toList cs with
  | some rest => some rest
  | none => afterText? "+build".toList cs

def excludesAt (cs : List Char) : Bool :=
  let found := do
    let rest ← afterText? ['/', '/'] cs
    let rest ← constraintTail? (Text.trimStart rest)
    let word ← if (rest.head?.map Text.isBlank).getD false then some (Text.trimStart rest) else none
    let rest ← afterText? "ignore".toList word
    let gap := rest.takeWhile Text.isBlank
    if gap.contains '\n' || gap.length == rest.length then some () else none
  found.isSome

/-- Looks at every line start; the flag says whether one is at the front. -/
def excludesFrom : Bool -> List Char -> Bool
  | _, [] => false
  | lineStart, c :: rest =>
      (lineStart && excludesAt (c :: rest)) || excludesFrom (c == '\n') rest

def isExcluded (bytes : Text.Bytes) (file : File) : Bool :=
  let header :=
    match file.package? with
    | some (start, _) => bytes.take start
    | none => bytes
  excludesFrom true (Text.lossy header).toList

end Source
end GoAtlas
