import GoAtlas.Package

/-!
# Models of system packages

System packages are not parsed. Those in a registry are served from a model written here; the
others are taken on trust.
-/

namespace GoAtlas

/-- Ready-made packages under their import paths. -/
abbrev Registry := Table CheckedPackage

namespace Registry

/-! # The standard models -/

def text : GoType := .basic .string

def bytes : GoType := .slice (.basic .uint8)

def nullaryTo (result : GoType) : Signature GoType := ⟨[], [result], false⟩

def interfaceDef (package name : String) (methods : List (InterfaceMethod GoType))
    (embedded : List GoType) : TypeDef :=
  TypeDef.plain (.declared package name) (.interface methods embedded)

def withString (name : TypeName) (underlying : GoType) : TypeDef :=
  { TypeDef.plain name underlying with methods := [⟨"String", false, nullaryTo text, none⟩] }

def fmtModel : CheckedPackage :=
  { CheckedPackage.bare "fmt" with
    types := [interfaceDef "fmt" "Stringer" [⟨"String", nullaryTo text⟩] []] }

def ioModel : CheckedPackage :=
  let transfer : Signature GoType := ⟨[bytes], [.basic .int, .error], false⟩
  let part (name : String) : GoType := .named (.declared "io" name)
  { CheckedPackage.bare "io" with
    types :=
      [interfaceDef "io" "Reader" [⟨"Read", transfer⟩] [],
        interfaceDef "io" "Writer" [⟨"Write", transfer⟩] [],
        interfaceDef "io" "Closer" [⟨"Close", nullaryTo .error⟩] [],
        interfaceDef "io" "ReadCloser" [] [part "Reader", part "Closer"],
        interfaceDef "io" "WriteCloser" [] [part "Writer", part "Closer"],
        interfaceDef "io" "ReadWriter" [] [part "Reader", part "Writer"]] }

def timeModel : CheckedPackage :=
  let duration : TypeName := .declared "time" "Duration"
  let unit (name : String) (nanoseconds : Int) : ConstDef :=
    ⟨name, .named duration, .int nanoseconds, none⟩
  { CheckedPackage.bare "time" with
    types :=
      [withString duration (.basic .int64),
        withString (.declared "time" "Month") (.basic .int),
        withString (.declared "time" "Weekday") (.basic .int),
        withString (.declared "time" "Time") (.struct [])]
    consts :=
      [unit "Nanosecond" 1,
        unit "Microsecond" 1000,
        unit "Millisecond" 1000000,
        unit "Second" 1000000000,
        unit "Minute" 60000000000,
        unit "Hour" 3600000000000] }

def jsonModel : CheckedPackage :=
  let path := "encoding/json"
  { CheckedPackage.bare "json" with
    types :=
      [interfaceDef path "Marshaler" [⟨"MarshalJSON", ⟨[], [bytes, .error], false⟩⟩] [],
        interfaceDef path "Unmarshaler" [⟨"UnmarshalJSON", ⟨[bytes], [.error], false⟩⟩] [],
        TypeDef.plain (.declared path "RawMessage") bytes] }

def standard : Registry :=
  Table.ofList
    [("fmt", fmtModel), ("io", ioModel), ("time", timeModel), ("encoding/json", jsonModel),
      ("errors", CheckedPackage.bare "errors")]

end Registry
end GoAtlas
