import GoAtlas.Session
import GoAtlas.Toml.Document
import GoAtlas.Toml.Quoted

/-!
# Configuration

A configuration file sets search roots and options. Every key may be left out.
-/

namespace GoAtlas

structure Config where
  workspaceRoot : Option String
  systemRoot : Option String
  vendorDir : Option String
  includeTests : Option Bool
  allowHardErrors : Option Bool
  deriving Repr, DecidableEq

/-- Why a configuration could not be loaded or written. -/
inductive ConfigError where
  | isDirectory
  | notText
  | invalid (path : String)
  | alreadyExists (path : String)
  | unwritable (cause : FileTree.WriteError)
  deriving Repr, DecidableEq

namespace ConfigError

def message : ConfigError -> String
  | isDirectory => "Is a directory (os error 21)"
  | notText => "stream did not contain valid UTF-8"
  | invalid path => "invalid config " ++ path
  | alreadyExists path => "config already exists at " ++ path ++ " (use --force to overwrite)"
  | unwritable cause => cause.message

end ConfigError

namespace Config

def empty : Config := ⟨none, none, none, none, none⟩

def defaultPath : String := "structer.toml"

/-! # Reading -/

def stringAt? (key : String) (entries : Toml.Entries) : Option (Option String) :=
  match entries.lookup key with
  | none => some none
  | some (.string s) => some (some s)
  | some _ => none

def boolAt? (key : String) (entries : Toml.Entries) : Option (Option Bool) :=
  match entries.lookup key with
  | none => some none
  | some (.boolean b) => some (some b)
  | some _ => none

def ofEntries? (entries : Toml.Entries) : Option Config := do
  let workspaceRoot ← stringAt? "workspace_root" entries
  let systemRoot ← stringAt? "system_root" entries
  let vendorDir ← stringAt? "vendor_dir" entries
  let includeTests ← boolAt? "include_tests" entries
  let allowHardErrors ← boolAt? "allow_hard_errors" entries
  return ⟨workspaceRoot, systemRoot, vendorDir, includeTests, allowHardErrors⟩

def parse? (text : String) : Option Config :=
  (Toml.read? text).bind ofEntries?

def load (t : FileTree) (path : Option String) : Except ConfigError (Option Config) :=
  let path : Path := ⟨path.getD defaultPath⟩
  if t.isDir path then .error .isDirectory
  else
    match t.read? path with
    | none => .ok none
    | some bytes =>
        match Text.decode? bytes with
        | none => .error .notText
        | some text =>
            match parse? text with
            | some config => .ok (some config)
            | none => .error (.invalid path.text)

/-! # Writing -/

def stringLine (key : String) : Option String -> String
  | some s => key ++ " = " ++ Toml.quote s ++ "\n"
  | none => ""

def boolLine (key : String) : Option Bool -> String
  | some true => key ++ " = true\n"
  | some false => key ++ " = false\n"
  | none => ""

def text (c : Config) : String :=
  stringLine "workspace_root" c.workspaceRoot ++ stringLine "system_root" c.systemRoot ++
    stringLine "vendor_dir" c.vendorDir ++ boolLine "include_tests" c.includeTests ++
    boolLine "allow_hard_errors" c.allowHardErrors

/-- Writes a configuration; a file that exists is replaced only if `force` is set. -/
def save (t : FileTree) (path : String) (c : Config) (force : Bool) :
    Except ConfigError FileTree :=
  if t.pathExists ⟨path⟩ && !force then .error (.alreadyExists path)
  else
    match t.write ⟨path⟩ (Text.encode c.text) with
    | .ok t => .ok t
    | .error e => .error (.unwritable e)

/-! # Meaning -/

def searchRoots (c : Config) (fallback : SearchRoots) : SearchRoots where
  workspace := (c.workspaceRoot.map Path.mk).or fallback.workspace
  system := (c.systemRoot.map Path.mk).or fallback.system
  vendorDir := c.vendorDir.getD fallback.vendorDir

def options (c : Config) : Options where
  includeTests := c.includeTests.getD Options.defaults.includeTests
  allowHardErrors := c.allowHardErrors.getD Options.defaults.allowHardErrors

end Config
end GoAtlas
