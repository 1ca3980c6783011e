import GoAtlas.Check.Scope
import GoAtlas.Constant.Conversion

/-!
# Resolution in progress

Answers found so far while types and constants of a package are worked out, and the looking
up of names that needs no such work.
-/

namespace GoAtlas

abbrev Valued := Constant × GoType

structure Progress where
  packages : Table (Option Package)
  underlying : Table GoType
  aliases : Table GoType
  /-- Values of constants by their number; none for those without a value. -/
  values : List (Nat × Option Valued)
  errors : List TypeError

abbrev Resolve := StateT Progress (Inquiry String)

/-- Evaluation of an expression, which may fail without stopping the check. -/
abbrev Evaluate := ExceptT EvalError Resolve

namespace Resolve

def report (file : String) (line : Nat) (isSoft : Bool) (complaint : Complaint) : Resolve Unit :=
  modify fun p => { p with errors := p.errors ++ [⟨complaint, isSoft, some file, some line⟩] }

def complain (file : String) (line : Nat) (complaint : Complaint) : Resolve Unit :=
  report file line false complaint

def invalid (file : String) (line : Nat) (complaint : Complaint) : Resolve GoType := do
  complain file line complaint
  return .invalid

def packageAt (path : String) : Resolve (Option Package) := do
  match (← get).packages.get? path with
  | some known => return known
  | none =>
      let package ← do
        match ← StateT.lift (Inquiry.request path) with
        | .ok package => pure (some package)
        | .error _ => pure none
      modify fun p => { p with packages := p.packages.insert path package }
      return package

end Resolve

/-! # Names -/

def predeclared? (name : String) : Option GoType :=
  match BasicKind.ofIdent? name with
  | some kind => some (.basic kind)
  | none =>
      match name with
      | "error" => some .error
      | "any" => some (.interface [] [])
      | "comparable" => some (.named (.builtin "comparable"))
      | _ => none

namespace Scope

def dotType? (s : Scope) (file name : String) : Option GoType :=
  if isExported name then
    (s.fileScope file).dots.findSome? fun b =>
      b.package.bind fun package =>
        if package.isOpaque then none else (package.type? name).map TypeDef.asType
  else none

def dotConst? (s : Scope) (file name : String) : Option Valued :=
  (s.fileScope file).dots.findSome? fun b =>
    b.package.bind fun package => (package.constant? name).map fun c => (c.value, c.type)

def qualifiedType (s : Scope) (file : String) (label name : Source.Extent) : Resolve GoType :=
  match s.import? file label.text with
  | none => Resolve.invalid file label.line (.undefined label.text)
  | some b =>
      if b.isUnsafe then
        if name.text == "Pointer" then return .basic .unsafePointer
        else Resolve.invalid file name.line (.undefined ("unsafe." ++ name.text))
      else
        match b.package with
        | none => return .invalid
        | some package =>
            if !isExported name.text then
              Resolve.invalid file name.line (.notExported name.text label.text)
            else if package.isOpaque then return .named (.declared package.path name.text)
            else
              match package.type? name.text with
              | some d => return d.asType
              | none =>
                  Resolve.invalid file name.line (.undefined (label.text ++ "." ++ name.text))

def qualifiedConst (s : Scope) (file label name : String) : Except EvalError Valued :=
  match s.import? file label with
  | none => .error (.undefined label)
  | some b =>
      match b.package with
      | none => .error (.failedPackage label name)
      | some package =>
          if package.isOpaque then .error (.unknownPackage label name package.path)
          else
            match package.constant? name with
            | some c => .ok (c.value, c.type)
            | none => .error (.undefined (label ++ "." ++ name))

def qualifiedTarget? (s : Scope) (file label name : String) : Option GoType :=
  (s.import? file label).bind fun b =>
    b.package.bind fun package =>
      if package.isOpaque then
        if isExported name then some (.named (.declared package.path name)) else none
      else (package.type? name).map TypeDef.asType

end Scope
end GoAtlas
