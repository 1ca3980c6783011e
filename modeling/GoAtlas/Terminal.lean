import GoAtlas.Package.Kind

/-!
# Terminal output

Colours and symbols. A theme is plain unless the output goes to a terminal that wants colours.
-/

namespace GoAtlas

/-- Codes of a terminal style: a colour, then effects. -/
structure Style where
  codes : List Nat
  deriving Repr, DecidableEq

namespace Style

def plain : Style := ⟨[]⟩

def render (s : Style) (text : String) : String :=
  if s.codes.isEmpty then text
  else
    "\x1b[" ++ String.intercalate ";" (s.codes.map toString) ++ "m" ++ text ++ "\x1b[0m"

end Style

structure Theme where
  header : Style
  success : Style
  error : Style
  warn : Style
  dim : Style
  /-- Names of types and import paths. -/
  ident : Style
  user : Style
  vendored : Style
  system : Style

namespace Theme

def plain : Theme :=
  ⟨.plain, .plain, .plain, .plain, .plain, .plain, .plain, .plain, .plain⟩

def colored : Theme where
  header := ⟨[36, 1]⟩
  success := ⟨[32, 1]⟩
  error := ⟨[31, 1]⟩
  warn := ⟨[33, 1]⟩
  dim := ⟨[37, 2]⟩
  ident := ⟨[1]⟩
  user := ⟨[32]⟩
  vendored := ⟨[35]⟩
  system := ⟨[34]⟩

def select (isTerminal noColor : Bool) : Theme :=
  if isTerminal && !noColor then colored else plain

def kindLabel (t : Theme) (kind : PackageKind) : String :=
  let style :=
    match kind with
    | .user => t.user
    | .vendored => t.vendored
    | .system => t.system
    | .absent => t.dim
  style.render ("[" ++ kind.display ++ "]")

end Theme

namespace Symbol

def package : String := "📦"

def check : String := "✅"

def cross : String := "❌"

def warning : String := "⚠️"

def search : String := "🔍"

def file : String := "📄"

def gear : String := "⚙️"

end Symbol
end GoAtlas
