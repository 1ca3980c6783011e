import GoAtlas.Comment
import GoAtlas.Session.Query

/-!
# Declarations in the sources

The text of a declaration and the comments that document it.
-/

namespace GoAtlas

/-- An indexed definition with the sources it was read from. -/
structure Declaration where
  definition : TypeDef
  source : LoadedPackage
  span : Span

namespace Source

/-- The name that an embedded field gets from its type: what follows the last dot, type
arguments aside. -/
def embeddedName (type : String) : String :=
  let base := (type.toList.dropWhile (· == '*')).takeWhile (· != '[')
  String.ofList (Text.trim (Text.lastPiece '.' base))

namespace FieldDecl

def names : FieldDecl -> List String
  | named _ names _ _ => names.map (·.text)
  | embedded _ _ type _ => [embeddedName type.extent.text]

end FieldDecl

namespace TypeSpec

def covers (s : TypeSpec) (start stop : Nat) : Bool :=
  s.extent.start ≤ start && start < s.extent.stop && stop ≤ s.extent.stop

def field? (s : TypeSpec) (name : String) : Option FieldDecl :=
  match s.type with
  | .struct _ fields => fields.find? fun f => f.names.contains name
  | _ => none

end TypeSpec

namespace File

def narrower : Option TypeSpec -> TypeSpec -> Option TypeSpec
  | none, s => some s
  | some best, s =>
      if s.extent.stop - s.extent.start < best.extent.stop - best.extent.start then some s
      else some best

/-- The innermost type declaration over a range of bytes. Alias declarations do not count. -/
def specAt? (f : File) (start stop : Nat) : Option TypeSpec :=
  (f.typeSpecs.filter fun s => !s.isAlias && s.covers start stop).foldl narrower none

end File
end Source

namespace Session

def declaration (s : Session) (name : TypeName) : Except Error Declaration :=
  match s.object? name with
  | none => .error (.objectNotFound name.full)
  | some d =>
      match (s.package? name.packagePath).bind (·.source) with
      | none => .error (.objectNotFound ("no sources loaded for " ++ name.full))
      | some source =>
          match d.span with
          | none => .error (.objectNotFound ("no declaration position for " ++ name.full))
          | some span => .ok ⟨d, source, span⟩

def sourceText (s : Session) (name : TypeName) : Except Error Text.Bytes := do
  let d ← s.declaration name
  match d.source.slice? d.span.file d.span.start d.span.stop with
  | some bytes => return bytes
  | none => throw (.objectNotFound ("no contents for " ++ name.full ++ " in " ++ d.span.file))

def typeDoc (s : Session) (name : TypeName) : Except Error String := do
  let d ← s.declaration name
  return Comment.ofExtent ((d.source.contents? d.span.file).getD []) d.span.start d.span.stop

def fieldDoc (s : Session) (name : TypeName) (field : String) : Except Error String := do
  let d ← s.declaration name
  if d.definition.underlying.fields?.isNone then throw (.notStruct name.full)
  match d.source.source? d.span.file with
  | none => return ""
  | some source =>
      match (source.file.specAt? d.span.start d.span.stop).bind (·.field? field) with
      | none => return ""
      | some f => return Comment.ofExtent source.bytes f.extent.start f.extent.stop

end Session
end GoAtlas
