import GoAtlas.Check.Progress

/-!
# Types and constants

Type expressions become types and constant expressions become values. Expressions are followed
through their own structure; where a name leads to another declaration the way goes through
`Links`, which know what is being worked out already, so that declarations that need
themselves are found and every way ends.
-/

namespace GoAtlas

/-- How names lead to other declarations of the package. -/
structure Links where
  aliased : String -> Resolve GoType
  underlying : String -> Resolve GoType
  const : Nat -> Resolve (Option Valued)

/-- Alias chains through other packages are followed this far, further than any importer
leads. -/
def chainLimit : Nat := 4611686018427387904

namespace Scope

def underlyingWithin (s : Scope) (links : Links) : Nat -> GoType -> Resolve GoType
  | 0, _ => return .invalid
  | fuel + 1, .named (.declared package name) => do
      if package == s.path then links.underlying name
      else
        match ← Resolve.packageAt package with
        | none => return .invalid
        | some p =>
            match p.type? name with
            | none => return .invalid
            | some d =>
                if d.isAlias then underlyingWithin s links fuel d.underlying
                else return d.underlying
  | _ + 1, .named (.builtin name) =>
      if name == "error" then return .errorInterface else return .interface [] []
  | _ + 1, type => return type

def underlying (s : Scope) (links : Links) (type : GoType) : Resolve GoType :=
  s.underlyingWithin links chainLimit type

def namedType (s : Scope) (links : Links) (file : String) (tparams : List String)
    (x : Source.Extent) : Resolve GoType :=
  let name := x.text
  if tparams.contains name then return .named (.builtin name)
  else
    match s.types.get? name with
    | some d => if d.spec.isAlias then links.aliased name else return .named (.declared s.path name)
    | none =>
        if s.isConst name || s.others.contains name then
          Resolve.invalid file x.line (.notType name)
        else
          match predeclared? name with
          | some type => return type
          | none =>
              match s.dotType? file name with
              | some type => return type
              | none => Resolve.invalid file x.line (.undefined name)

/-! # Conversion of values -/

def convertTo (s : Scope) (links : Links) (value : Constant) (target : GoType) :
    Evaluate Valued := do
  if target.isInvalid then return (value, target)
  else
    match ← s.underlying links target with
    | .basic .invalid => return (value, target)
    | .basic kind =>
        match value.convert kind with
        | .ok v => return (v, target)
        | .error cause => throw (.arithmetic cause)
    | other => throw (.wrongShape target other)

def isUntyped (type : GoType) : Bool :=
  (type.basic?.map BasicKind.isUntyped).getD false

def assign (s : Scope) (links : Links) (x : Valued) (target : GoType) : Evaluate Valued :=
  let (value, found) := x
  if !isUntyped found && !(found == target) && !found.isInvalid then
    throw (.wrongType value found target)
  else s.convertTo links value target

def literal (what text : String) (kind : BasicKind) (value : Option Constant) :
    Evaluate Valued :=
  match value with
  | some v => return (v, .basic kind)
  | none => throw (.malformed what text)

def untypedResult (value : Constant) (a b : BasicKind) : BasicKind :=
  let kind := a.combine b
  match value with
  | .float _ => if kind.isInteger then .untypedFloat else kind
  | _ => kind

def combine (s : Scope) (links : Links) (op : BinaryOp) (x y : Valued) : Evaluate Valued := do
  let (a, left) := x
  let (b, right) := y
  match Constant.binary op a b with
  | .error cause => throw (.arithmetic cause)
  | .ok value =>
      if op.isComparison then return (value, .basic .untypedBool)
      else if op.isShift then
        if isUntyped left then return (value, left) else s.convertTo links value left
      else
        match left.basic?.filter BasicKind.isUntyped, right.basic?.filter BasicKind.isUntyped with
        | some k, some l => return (value, .basic (untypedResult value k l))
        | some _, none => s.convertTo links value right
        | none, some _ => s.convertTo links value left
        | none, none =>
            if left == right then s.convertTo links value left
            else throw (.typesDiffer left right)

def identConst (s : Scope) (links : Links) (file name : String) : Evaluate Valued := do
  match s.constIndex? name with
  | some i =>
      match ← links.const i with
      | some v => return v
      | none => throw (.invalidConstant name)
  | none =>
      match s.dotConst? file name with
      | some v => return v
      | none => throw (.undefined name)

def identTarget (s : Scope) (links : Links) (file : String) (x : Source.Extent) :
    Resolve (Option GoType) :=
  if s.types.contains x.text then do
    return some (← s.namedType links file [] x)
  else if s.isConst x.text || s.others.contains x.text then return none
  else
    match predeclared? x.text with
    | some type => return some type
    | none => return s.dotType? file x.text

def conversionTarget (s : Scope) (links : Links) (file : String) :
    Source.Expr -> Resolve (Option GoType)
  | .ident x => s.identTarget links file x
  | .selector _ operand field =>
      return s.qualifiedTarget? file operand.extent.text field.text
  | .paren _ inner => conversionTarget s links file inner
  | _ => return none

def isLen (s : Scope) : Source.Expr -> Bool
  | .ident x => x.text == "len" && !s.types.contains "len"
  | _ => false

/-! # Fields and methods -/

/-- Adds a field unless its name is taken; blank names never are. -/
def addField (file : String) (line : Nat) (fields : List (Field GoType)) (f : Field GoType) :
    Resolve (List (Field GoType)) :=
  if f.name != "_" && fields.any (fun g => g.name == f.name) then do
    Resolve.complain file line (.fieldRedeclared f.name)
    return fields
  else return fields ++ [f]

def addFields (file : String) (type : GoType) (tag : Option String) (package : String) :
    List (Field GoType) -> List Source.Extent -> Resolve (List (Field GoType))
  | fields, [] => return fields
  | fields, x :: names => do
      let fields ← addField file x.line fields ⟨x.text, type, tag, false, package⟩
      addFields file type tag package fields names

def addMethod (file : String) (line : Nat) (methods : List (InterfaceMethod GoType))
    (m : InterfaceMethod GoType) : Resolve (List (InterfaceMethod GoType)) :=
  if methods.any fun n => n.name == m.name then do
    Resolve.complain file line (.duplicateMethod m.name)
    return methods
  else return methods ++ [m]

def embeddedName : Source.TypeExpr -> String
  | .qualified _ _ name => name.text
  | .generic _ base _ => embeddedName base
  | .pointer _ elem => embeddedName elem
  | .paren _ inner => embeddedName inner
  | type => type.extent.text

def tagOf (tag : Option Source.Extent) : Option String :=
  tag.bind fun x => Literal.string? x.text

def lengthOf? (value : Except EvalError Valued) : Option Nat :=
  match value with
  | .error _ => none
  | .ok (v, _) =>
      v.toInt?.bind fun n => if 0 ≤ n && n < 18446744073709551616 then some n.toNat else none

/-! # Expressions of both kinds -/

mutual

def resolveType (s : Scope) (links : Links) (file : String) (tparams : List String) :
    Source.TypeExpr -> Resolve GoType
  | .name x => s.namedType links file tparams x
  | .qualified _ package name => s.qualifiedType file package name
  | .generic _ base _ => resolveType s links file tparams base
  | .paren _ inner => resolveType s links file tparams inner
  | .negated _ inner => resolveType s links file tparams inner
  | .pointer _ elem => return .pointer (← resolveType s links file tparams elem)
  | .slice _ elem => return .slice (← resolveType s links file tparams elem)
  | .array _ len elem => do
      let elem ← resolveType s links file tparams elem
      match lengthOf? (← (eval s links file none len).run) with
      | some n => return .array n elem
      | none => Resolve.invalid file len.extent.line (.arrayLength len.extent.text)
  | .map _ key value => do
      let key ← resolveType s links file tparams key
      let value ← resolveType s links file tparams value
      return .map key value
  | .chan _ dir elem => return .chan dir (← resolveType s links file tparams elem)
  | .func _ params results => do
      let (params, variadic) ← paramTypes s links file tparams params
      let (results, _) ← paramTypes s links file tparams results
      return .func ⟨params, results, variadic⟩
  | .struct _ fields => return .struct (← structFields s links file tparams [] fields)
  | .interface _ elems => interfaceElems s links file tparams [] [] elems

/-- Types of a parameter list, one for each name, and whether it has a variadic
parameter. -/
def paramTypes (s : Scope) (links : Links) (file : String) (tparams : List String) :
    List Source.Param -> Resolve (List GoType × Bool)
  | [] => return ([], false)
  | .plain names type :: rest => do
      let type ← resolveType s links file tparams type
      let (types, variadic) ← paramTypes s links file tparams rest
      return (List.replicate (max names.length 1) type ++ types, variadic)
  | .variadic _ type :: rest => do
      let type ← resolveType s links file tparams type
      let (types, _) ← paramTypes s links file tparams rest
      return (.slice type :: types, true)

def structFields (s : Scope) (links : Links) (file : String) (tparams : List String)
    (fields : List (Field GoType)) : List Source.FieldDecl -> Resolve (List (Field GoType))
  | [] => return fields
  | .named _ names type tag :: rest => do
      let type ← resolveType s links file tparams type
      let fields ← addFields file type (tagOf tag) s.path fields names
      structFields s links file tparams fields rest
  | .embedded _ star type tag :: rest => do
      let base ← resolveType s links file tparams type
      let name := embeddedName type
      let field : Field GoType :=
        ⟨name, if star then .pointer base else base, tagOf tag, true, s.path⟩
      let fields ← addField file type.extent.line fields field
      structFields s links file tparams fields rest

def interfaceElems (s : Scope) (links : Links) (file : String) (tparams : List String)
    (methods : List (InterfaceMethod GoType)) (embedded : List GoType) :
    List Source.InterfaceElem -> Resolve GoType
  | [] => return .interface methods embedded
  | .method x name params results :: rest => do
      let (params, variadic) ← paramTypes s links file tparams params
      let (results, _) ← paramTypes s links file tparams results
      let methods ← addMethod file x.line methods ⟨name.text, ⟨params, results, variadic⟩⟩
      interfaceElems s links file tparams methods embedded rest
  | .union terms :: rest => do
      let types ← resolveTypes s links file tparams terms
      interfaceElems s links file tparams methods (embedded ++ types) rest

def resolveTypes (s : Scope) (links : Links) (file : String) (tparams : List String) :
    List Source.TypeExpr -> Resolve (List GoType)
  | [] => return []
  | type :: rest => do
      let type ← resolveType s links file tparams type
      let types ← resolveTypes s links file tparams rest
      return type :: types

/-- The value of an expression. `iota` is known only inside constant declarations. -/
def eval (s : Scope) (links : Links) (file : String) (iota : Option Nat) :
    Source.Expr -> Evaluate Valued
  | .int x => literal "integer" x.text .untypedInt ((Literal.int? x.text).map .int)
  | .float x => literal "float" x.text .untypedFloat ((Literal.float? x.text).map .float)
  | .rune x => literal "rune" x.text .untypedRune ((Literal.rune? x.text).map .int)
  | .string x => literal "string" x.text .untypedString ((Literal.string? x.text).map .string)
  | .bool _ value => return (.bool value, .basic .untypedBool)
  | .iota _ =>
      match iota with
      | some n => return (.int n, .basic .untypedInt)
      | none => throw .iotaOutside
  | .nil _ => throw .nilValue
  | .imaginary _ => throw .complexValue
  | .paren _ inner => eval s links file iota inner
  | .ident x => s.identConst links file x.text
  | .selector x operand field =>
      match operand with
      | .ident label => ExceptT.mk (pure (s.qualifiedConst file label.text field.text))
      | _ => throw (.notConstant x.text)
  | .unary _ op operand => do
      let (value, type) ← eval s links file iota operand
      match Constant.unary op value with
      | .ok value => return (value, type)
      | .error cause => throw (.arithmetic cause)
  | .binary _ op left right => do
      let x ← eval s links file iota left
      let y ← eval s links file iota right
      s.combine links op x y
  | .call x function [argument] => do
      if s.isLen function then
        match ← eval s links file iota argument with
        | (.string text, _) => return (.int (Text.byteSize text), .basic .int)
        | _ => throw (.notConstant x.text)
      else
        match ← s.conversionTarget links file function with
        | none => throw (.notConstant x.text)
        | some target =>
            let (value, _) ← eval s links file iota argument
            s.convertTo links value target
  | .call x _ _ => throw (.notConstant x.text)
  | .conversion _ type operand => do
      let target ← resolveType s links file [] type
      let (value, _) ← eval s links file iota operand
      s.convertTo links value target
  | .other x => throw (.notConstantForm x.text)

end

/-! # Links -/

inductive Pending where
  | alias (name : String)
  | type (name : String)
  | const (index : Nat)
  deriving Repr, DecidableEq

def aliasType (s : Scope) (pending : List Pending) (deeper : Pending -> Links) (name : String) :
    Resolve GoType := do
  match (← get).aliases.get? name, s.types.get? name with
  | some type, _ => return type
  | none, none => return .invalid
  | none, some d =>
      if pending.contains (.alias name) then
        Resolve.invalid d.file d.spec.extent.line (.recursiveAlias name)
      else
        let type ← s.resolveType (deeper (.alias name)) d.file d.spec.params d.spec.type
        modify fun p => { p with aliases := p.aliases.insert name type }
        return type

def underlyingOf (s : Scope) (pending : List Pending) (deeper : Pending -> Links)
    (name : String) : Resolve GoType := do
  match (← get).underlying.get? name, s.types.get? name with
  | some type, _ => return type
  | none, none => return .invalid
  | none, some d =>
      if pending.contains (.type name) then
        Resolve.invalid d.file d.spec.extent.line (.recursiveType name)
      else
        let links := deeper (.type name)
        let type ← s.resolveType links d.file d.spec.params d.spec.type
        let underlying ← s.underlying links type
        modify fun p => { p with underlying := p.underlying.insert name underlying }
        return underlying

def declaredValue (s : Scope) (links : Links) (d : ConstDecl) (expr : Source.Expr) :
    Evaluate Valued := do
  let value ← s.eval links d.file (some d.iota) expr
  match d.type with
  | none => return value
  | some type =>
      let target ← s.resolveType links d.file [] type
      s.assign links value target

def constValue (s : Scope) (pending : List Pending) (deeper : Pending -> Links) (i : Nat) :
    Resolve (Option Valued) := do
  match (← get).values.lookup i, s.consts[i]? with
  | some value, _ => return value
  | none, none => return none
  | none, some d =>
      if pending.contains (.const i) then
        Resolve.complain d.file d.spec.line (.initializationCycle d.name)
        return none
      else
        let value ←
          match d.expr with
          | none => pure none
          | some expr => do
              match ← (s.declaredValue (deeper (.const i)) d expr).run with
              | .ok value => pure (some value)
              | .error cause => do
                  Resolve.complain d.file d.spec.line (.invalidConstant d.name cause)
                  pure none
        modify fun p => { p with values := p.values ++ [(i, value)] }
        return value

def noLinks : Links := ⟨fun _ => return .invalid, fun _ => return .invalid, fun _ => return none⟩

/-- Links for what is pending; the number bounds how many more declarations can become
pending. -/
def linksWithin (s : Scope) : Nat -> List Pending -> Links
  | 0, _ => noLinks
  | fuel + 1, pending =>
      let deeper (p : Pending) : Links := linksWithin s fuel (p :: pending)
      ⟨s.aliasType pending deeper, s.underlyingOf pending deeper, s.constValue pending deeper⟩

/-- Every declared type can be pending as an alias and as a type, every constant once; one more
level finds that they are. -/
def linkDepth (s : Scope) : Nat :=
  2 * s.types.size + s.consts.length + 1

def links (s : Scope) : Links :=
  s.linksWithin s.linkDepth []

end Scope
end GoAtlas
