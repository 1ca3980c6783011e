/-!
# Kinds of packages

Where a package was found.
-/

namespace GoAtlas

inductive PackageKind where
  | absent
  | vendored
  | system
  | user
  deriving Repr, DecidableEq

namespace PackageKind

def text : PackageKind -> String
  | absent => ""
  | vendored => "vendor"
  | system => "system"
  | user => "user"

def display : PackageKind -> String
  | absent => "none"
  | kind => kind.text

def tag : PackageKind -> String
  | absent => "none"
  | vendored => "vendored"
  | system => "system"
  | user => "user"

def isFound (kind : PackageKind) : Bool :=
  kind != absent

end PackageKind
end GoAtlas
