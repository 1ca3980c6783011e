import GoAtlas.Json
import GoAtlas.Session.ConstGroup

/-!
# Data forms

The JSON of types, definitions and the answers of a session.
-/

namespace GoAtlas

namespace GoType

mutual

def toJson : GoType -> Json
  | basic kind => .record [("kind", "basic"), ("basic", kind.tag)]
  | named name => .record [("kind", "named"), ("name", name.full)]
  | struct fields => .record [("kind", "struct"), ("fields", .array (fieldsToJson fields))]
  | slice elem => .record [("kind", "slice"), ("elem", toJson elem)]
  | array len elem => .record [("kind", "array"), ("len", len), ("elem", toJson elem)]
  | pointer elem => .record [("kind", "pointer"), ("elem", toJson elem)]
  | map key value => .record [("kind", "map"), ("key", toJson key), ("value", toJson value)]
  | interface methods embedded =>
      .record
        [("kind", "interface"), ("methods", .array (methodsToJson methods)),
          ("embedded", .array (listToJson embedded))]
  | func ⟨params, results, variadic⟩ =>
      .record
        [("kind", "signature"), ("params", .array (listToJson params)),
          ("results", .array (listToJson results)), ("variadic", variadic)]
  | chan dir elem => .record [("kind", "chan"), ("dir", dir.tag), ("elem", toJson elem)]

def listToJson : List GoType -> List Json
  | [] => []
  | t :: rest => toJson t :: listToJson rest

def fieldsToJson : List (Field GoType) -> List Json
  | [] => []
  | ⟨name, type, tag, embedded, package⟩ :: rest =>
      .record
          ([("name", .string name), ("type", toJson type), ("embedded", .bool embedded),
            ("package", .string package)] ++ (tag.map fun t => ("tag", Json.string t)).toList) ::
        fieldsToJson rest

def methodsToJson : List (InterfaceMethod GoType) -> List Json
  | [] => []
  | ⟨name, ⟨params, results, variadic⟩⟩ :: rest =>
      .record
          [("name", .string name),
            ("signature",
              .record
                [("params", .array (listToJson params)), ("results", .array (listToJson results)),
                  ("variadic", variadic)])] ::
        methodsToJson rest

end

end GoType

namespace Field

def toJson (f : Field GoType) : Json :=
  match GoType.fieldsToJson [f] with
  | [j] => j
  | _ => .null

end Field

namespace Signature

def toJson (s : Signature GoType) : Json :=
  .record
    [("params", .array (GoType.listToJson s.params)),
      ("results", .array (GoType.listToJson s.results)), ("variadic", s.variadic)]

end Signature

namespace Span

def toJson (s : Span) : Json :=
  .record
    [("file", s.file), ("start_byte", s.start), ("end_byte", s.stop), ("line", s.line)]

def entry (span : Option Span) : List (String × Json) :=
  (span.map fun s => ("span", s.toJson)).toList

end Span

namespace Method

def toJson (m : Method) : Json :=
  .record
    ([("name", .string m.name), ("pointer_receiver", .bool m.onPointer),
      ("signature", m.signature.toJson)] ++ Span.entry m.span)

end Method

namespace TypeDef

def entries (d : TypeDef) : List (String × Json) :=
  [("name", .string d.name.full), ("underlying", d.underlying.toJson),
    ("methods", .array (d.methods.map Method.toJson)), ("alias", .bool d.isAlias)] ++
    Span.entry d.span

def toJson (d : TypeDef) : Json :=
  .record d.entries

end TypeDef

namespace Constant

def toJson : Constant -> Json
  | bool b => .bool b
  | string s => .string s
  | int v => .int v
  | float x => .float x

end Constant

namespace ConstGroup

def toJson (g : ConstGroup) : Json :=
  .record
    [("type", g.type.full), ("underlying", g.underlying.toJson), ("is_enum", g.isEnum),
      ("values",
        .array
          (g.values.map fun (name, value) =>
            .record [("name", name.full), ("value", value.toJson)]))]

end ConstGroup

namespace Stats

def toJson (s : Stats) : Json :=
  .record
    [("requests", s.requests), ("cache_hits", s.cacheHits), ("loads", s.loads),
      ("checks", s.checks)]

end Stats
end GoAtlas
