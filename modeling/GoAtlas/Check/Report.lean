import GoAtlas.Constant.Arithmetic
import GoAtlas.Package

/-!
# What a checker reports

Complaints about sources, soft or hard, and the outcome of a check. A soft complaint leaves
the rest of the package trustworthy.
-/

namespace GoAtlas

/-- Why an expression has no constant value. -/
inductive EvalError where
  | arithmetic (cause : ConstantError)
  | malformed (what text : String)
  | iotaOutside
  | nilValue
  | complexValue
  | notConstant (text : String)
  | notConstantForm (text : String)
  | undefined (text : String)
  | invalidConstant (name : String)
  | failedPackage (label name : String)
  | unknownPackage (label name path : String)
  | wrongType (value : Constant) (found wanted : GoType)
  | wrongShape (wanted shape : GoType)
  | typesDiffer (left right : GoType)

namespace EvalError

def message : EvalError -> String
  | arithmetic cause => cause.message
  | malformed what text => s!"malformed {what} {text}"
  | iotaOutside => "cannot use iota outside constant declaration"
  | nilValue => "nil is not a constant"
  | complexValue => "complex constants are not supported"
  | notConstant text => s!"{text} is not constant"
  | notConstantForm text => s!"{text} is not a constant expression"
  | undefined text => s!"undefined: {text}"
  | invalidConstant name => s!"{name} is not a valid constant"
  | failedPackage label name => s!"{label}.{name} refers to a package that failed to import"
  | unknownPackage label name path =>
      s!"cannot evaluate {label}.{name}: no type information for {path}"
  | wrongType value found wanted =>
      s!"cannot use {value.text} (constant of type {found.text}) as {wanted.text} value"
  | wrongShape wanted shape => s!"invalid constant type {wanted.text} ({shape.shape})"
  | typesDiffer left right => s!"mismatched types {left.text} and {right.text}"

end EvalError

inductive Complaint where
  | redeclared (name : String)
  | malformedImport
  | failedImport (path : String) (cause : Error)
  | missingValue
  | extraValue
  | notType (name : String)
  | undefined (name : String)
  | notExported (name label : String)
  | arrayLength (text : String)
  | fieldRedeclared (name : String)
  | duplicateMethod (name : String)
  | recursiveAlias (name : String)
  | recursiveType (name : String)
  | noReceiver
  | foreignReceiver (base : String)
  | methodRedeclared (base name : String)
  | initializationCycle (name : String)
  | invalidConstant (name : String) (cause : EvalError)
  | unusedImport (path : String) (label : Option String)
  | free (text : String)

namespace Complaint

def message : Complaint -> String
  | redeclared name => s!"{name} redeclared in this block"
  | malformedImport => "malformed import path"
  | failedImport path cause => s!"could not import {path} ({cause.message})"
  | missingValue => "missing init expr for const declaration"
  | extraValue => "extra init expr"
  | notType name => s!"{name} is not a type"
  | undefined name => s!"undefined: {name}"
  | notExported name label => s!"name {name} not exported by package {label}"
  | arrayLength text => s!"invalid array length {text}"
  | fieldRedeclared name => s!"{name} redeclared"
  | duplicateMethod name => s!"duplicate method {name}"
  | recursiveAlias name => s!"invalid recursive type alias {name}"
  | recursiveType name => s!"invalid recursive type {name}"
  | noReceiver => "method has no receiver"
  | foreignReceiver base => s!"cannot define new methods on non-local type {base}"
  | methodRedeclared base name => s!"method {base}.{name} already declared"
  | initializationCycle name => s!"initialization cycle for {name}"
  | invalidConstant name cause => s!"invalid constant {name}: {cause.message}"
  | unusedImport path none => Text.quote path ++ " imported and not used"
  | unusedImport path (some label) =>
      Text.quote path ++ " imported as " ++ label ++ " and not used"
  | free text => text

end Complaint

structure TypeError where
  complaint : Complaint
  isSoft : Bool
  file : Option String
  line : Option Nat

namespace TypeError

def text (e : TypeError) : String :=
  match e.file, e.line with
  | some file, some line => s!"{file}:{line}: {e.complaint.message}"
  | some file, none => s!"{file}: {e.complaint.message}"
  | none, _ => e.complaint.message

end TypeError

structure CheckOutcome where
  package : CheckedPackage
  errors : List TypeError

namespace CheckOutcome

def firstHard? (o : CheckOutcome) : Option TypeError :=
  o.errors.find? fun e => !e.isSoft

end CheckOutcome
end GoAtlas
