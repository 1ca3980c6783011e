import GoAtlas.Text.Split

/-!
# Paths

A path is text with slashes. Paths are compared by their components: repeated slashes and
inner `.` segments do not count, a leading `.` does. Joining and taking the parent keep the
text as it was written.
-/

namespace GoAtlas

structure Path where
  text : String
  deriving Repr

inductive Component where
  | root
  | here
  | up
  | normal (name : String)
  deriving Repr, DecidableEq

namespace Component

def text : Component -> String
  | root => "/"
  | here => "."
  | up => ".."
  | normal name => name

end Component

namespace Path

def isAbsolute (p : Path) : Bool :=
  p.text.toList.head? == some '/'

def segments (p : Path) : List String :=
  Text.pieceStrings '/' p.text

/-- A segment that is no component, unless it is the leading `.` of a relative path. -/
def isIdle (segment : String) : Bool :=
  segment == "" || segment == "."

def componentsOf (segments : List String) : List Component :=
  segments.filterMap fun segment =>
    if isIdle segment then none
    else if segment == ".." then some .up
    else some (.normal segment)

def components (p : Path) : List Component :=
  match p.segments with
  | "" :: rest => if p.isAbsolute then .root :: componentsOf rest else componentsOf rest
  | "." :: rest => .here :: componentsOf rest
  | segments => componentsOf segments

def isOpenEnded (p : Path) : Bool :=
  match p.segments.getLast? with
  | some last => isIdle last && 1 < p.segments.length
  | none => false

instance : BEq Path where
  beq a b := a.components == b.components

def join (base : Path) (rest : String) : Path :=
  if (Path.mk rest).isAbsolute || base.text == "" then ⟨rest⟩
  else if base.text.toList.getLast? == some '/' then ⟨base.text ++ rest⟩
  else ⟨base.text ++ "/" ++ rest⟩

def dropIdleEnd (segments : List String) : List String :=
  (segments.reverse.dropWhile isIdle).reverse

/-- The path without its last component; none for the root and for a path without
components. -/
def parent? (p : Path) : Option Path :=
  match p.segments with
  | [] => none
  | first :: rest =>
      match dropIdleEnd rest with
      | [] =>
          if first == "" then none else some ⟨""⟩
      | kept =>
          match dropIdleEnd kept.dropLast with
          | [] => if p.isAbsolute then some ⟨"/"⟩ else some ⟨first⟩
          | kept => some ⟨String.intercalate "/" (first :: kept)⟩

def ancestorsWithin : Nat -> Path -> List Path
  | 0, _ => []
  | fuel + 1, p =>
      p ::
        match p.parent? with
        | some q => if q.text == "" then [] else ancestorsWithin fuel q
        | none => []

def ancestors (p : Path) : List Path :=
  ancestorsWithin (p.segments.length + 1) p

def startsWith (p base : Path) : Bool :=
  base.components.isPrefixOf p.components

def after? : List Component -> List Component -> Option (List Component)
  | [], rest => some rest
  | b :: base, c :: rest => if b == c then after? base rest else none
  | _ :: _, [] => none

def below? (p base : Path) : Option (List Component) :=
  after? base.components p.components

end Path
end GoAtlas
