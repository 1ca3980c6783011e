import GoAtlas.Text.Blank
import GoAtlas.Text.Split
import GoAtlas.Text.Utf8

/-!
# Doc comments

The doc comment of a declaration is the run of `//` lines right above it and a `//` comment
that follows it on its last line. `Comment.text` turns the lines into plain text: markers and
directives are dropped, blank lines are kept only between others and never twice in a row.
-/

namespace GoAtlas
namespace Comment

abbrev Line := List Char

def mark : Line := ['/', '/']

def isComment (line : Line) : Bool :=
  mark.isPrefixOf line

/-! # Text of comment lines -/

def isWordChar (c : Char) : Bool :=
  ('a' ≤ c && c ≤ 'z') || ('0' ≤ c && c ≤ '9')

def isKeyed (body : Line) : Bool :=
  match body.takeWhile isWordChar, body.dropWhile isWordChar with
  | _ :: _, ':' :: c :: _ => isWordChar c
  | _, _ => false

def isDirective (body : Line) : Bool :=
  "line ".toList.isPrefixOf body || "extern ".toList.isPrefixOf body ||
    "export ".toList.isPrefixOf body || isKeyed body

def body (line : Line) : Line :=
  if isComment line then line.drop 2 else line

/-- One blank after the mark belongs to it, and blanks at the end do not count. -/
def content (body : Line) : Line :=
  match body with
  | ' ' :: rest => Text.trimEnd rest
  | body => Text.trimEnd body

def contents (lines : List Line) : List Line :=
  ((lines.map body).filter fun b => !isDirective b).map content

/-- Drops each blank line that does not follow another line; `afterLine` says whether one
came before. -/
def squeeze (afterLine : Bool) : List Line -> List Line
  | [] => []
  | line :: rest =>
      if line.isEmpty then
        if afterLine then line :: squeeze false rest else squeeze false rest
      else line :: squeeze true rest

def dropBlankEnd (lines : List Line) : List Line :=
  (lines.reverse.dropWhile List.isEmpty).reverse

def text (lines : List Line) : String :=
  String.join ((dropBlankEnd (squeeze false (contents lines))).map fun line =>
    String.ofList line ++ "\n")

/-! # Comments of a declaration -/

def above (before : List Line) : List Line :=
  ((before.reverse.map Text.trim).takeWhile isComment).reverse

def beside (after : Line) : List Line :=
  let line := Text.trim after
  if isComment line then [line] else []

def linesBefore (text : Line) : List Line :=
  (Text.pieces '\n' text).dropLast

def restOfLine (text : Line) : Line :=
  text.takeWhile (· != '\n')

/-- The doc comment of what stands between two byte offsets. A file that is no text has
none. -/
def ofExtent (bytes : Text.Bytes) (start stop : Nat) : String :=
  if (Text.decode? bytes).isNone || start > stop || stop > bytes.length then ""
  else
    let before := (Text.lossy (bytes.take start)).toList
    let after := (Text.lossy (bytes.drop stop)).toList
    text (above (linesBefore before) ++ beside (restOfLine after))

end Comment
end GoAtlas
