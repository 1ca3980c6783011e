import GoAtlas.Text.Quoted

/-!
# Failures

What can go wrong when packages are located, loaded, checked and queried. `Error.message`
holds the wording.
-/

namespace GoAtlas

inductive SourceFault where
  | unreadable (file : String) (row column : Nat)
  | severalPackages (first second : String)
  deriving Repr, DecidableEq

namespace SourceFault

def message : SourceFault -> String
  | unreadable file row column => s!"{file}:{row}:{column}: syntax error"
  | severalPackages first second => s!"multiple packages found: {first} and {second}"

end SourceFault

inductive Error where
  | invalidTypeName (text : String)
  | invalidImportPath (text : String)
  | packageNotFound (text : String)
  | packageFailed (path cause : String)
  | parse (dir : String) (faults : List SourceFault)
  | typeCheck (path text : String)
  | importCycle (chain : List String)
  | notInterface (name : String)
  | notStruct (name : String)
  | objectNotFound (text : String)
  | invariant (text : String)
  | unhandledKind (text : String)
  | visitor (text : String)
  deriving Repr, DecidableEq

namespace Error

def message : Error -> String
  | invalidTypeName text =>
      "invalid type name " ++ Text.quote text ++ ", expected format full/pkg/path.Type"
  | invalidImportPath text => "invalid import path " ++ Text.quote text
  | packageNotFound text => "package not found: " ++ text
  | packageFailed path cause => s!"package {path} failed to resolve: {cause}"
  | parse dir faults =>
      "parse error in " ++ dir ++ ":\n" ++
        String.intercalate "\n" (faults.map SourceFault.message)
  | typeCheck path text => s!"type check failed for {path}: {text}"
  | importCycle chain => "import cycle through " ++ String.intercalate " -> " chain
  | notInterface name => s!"type {name} is not an interface"
  | notStruct name => s!"type {name} is not a struct"
  | objectNotFound text => "object not found: " ++ text
  | invariant text => "invariant violated: " ++ text
  | unhandledKind text => "unhandled type kind in walk: " ++ text
  | visitor text => text

/-- Failures that tell of a mistake in the library or its caller, not in the sources. -/
def isInvariant : Error -> Bool
  | invariant _ | unhandledKind _ | invalidTypeName _ => true
  | _ => false

end Error
end GoAtlas
