import GoAtlas.Proofs.Check.Steady

/-!
# The first pass as a fold

Under fixed answers the first pass of a check goes through a list of items, each of which makes
one change to the collection: a file begins, an import is bound, a name is claimed, a method is
noted, or a fault is found.  What a package declares is read off its list of items.
-/

namespace GoAtlas

inductive Claim where
  | type (spec : Source.TypeSpec)
  | const (spec : Source.Extent) (type : Option Source.TypeExpr) (expr : Option Source.Expr)
      (iota : Nat)
  | other

inductive Item where
  | opening (file : String) (qualifiers : List String)
  | binding (file : String) (line : Nat) (label : Option Source.ImportLabel) (path : String)
  | fault (file : String) (line : Nat) (complaint : Complaint)
  | claim (file : String) (x : Source.Extent) (what : Claim)
  | method (m : MethodSource)

namespace Item

/-!
# The items of a package
-/

def ofImport (file : String) (spec : Source.ImportSpec) : List Item :=
  match Literal.string? spec.path.text with
  | none => [fault file spec.extent.line .malformedImport]
  | some "C" => []
  | some path => [binding file spec.extent.line spec.label path]

def arityFaults (file : String) (spec : Source.ConstSpec) (values : List Source.Expr) :
    List Item :=
  if values.length < spec.names.length then [fault file spec.extent.line .missingValue]
  else if values.length > spec.names.length then [fault file spec.extent.line .extraValue]
  else []

def ofConstNames (file : String) (spec : Source.Extent) (type : Option Source.TypeExpr)
    (iota : Nat) : List Source.Extent -> List Source.Expr -> List Item
  | [], _ => []
  | x :: names, values =>
      claim file x (.const spec type values.head? iota) ::
        ofConstNames file spec type iota names values.tail

def ofConstSpecs (file : String) :
    Option (Option Source.TypeExpr × List Source.Expr) -> Nat -> List Source.ConstSpec ->
      List Item
  | _, _, [] => []
  | last, iota, spec :: rest =>
      let (type, values) := Collect.repeated last spec
      let next :=
        match spec.values with
        | some values => some (spec.type, values)
        | none => last
      arityFaults file spec values ++ ofConstNames file spec.extent type iota spec.names values ++
        ofConstSpecs file next (iota + 1) rest

def ofDecl (file : String) : Source.Decl -> List Item
  | .imports specs => specs.flatMap (ofImport file)
  | .types specs => specs.map fun spec => claim file spec.name (.type spec)
  | .consts specs => ofConstSpecs file none 0 specs
  | .vars names => names.map fun x => claim file x .other
  | .func x => if x.text == "init" then [] else [claim file x .other]
  | .method d => [method ⟨file, d⟩]
  | .package _ _ => []
  | .statement => []

def ofFile (f : String × Source.File) : List Item :=
  opening f.1 f.2.qualifiers :: f.2.decls.flatMap (ofDecl f.1)

/-- What a group of constants leads to: faults, and claims of constants. -/
inductive OfConsts (file : String) : Item -> Prop where
  | fault (line : Nat) (complaint : Complaint) : OfConsts file (.fault file line complaint)
  | claim (x spec : Source.Extent) (type : Option Source.TypeExpr) (expr : Option Source.Expr)
      (iota : Nat) : OfConsts file (.claim file x (.const spec type expr iota))

theorem ofConsts_of_mem_names {file : String} {spec : Source.Extent}
    {type : Option Source.TypeExpr} {iota : Nat} {names : List Source.Extent}
    {values : List Source.Expr} {i : Item}
    (hi : i ∈ ofConstNames file spec type iota names values) : OfConsts file i := by
  induction names generalizing values with
  | nil => cases hi
  | cons x names ih =>
      rcases List.mem_cons.mp hi with rfl | hrest
      · exact .claim x spec type values.head? iota
      · exact ih hrest

theorem ofConsts_of_mem_faults {file : String} {spec : Source.ConstSpec}
    {values : List Source.Expr} {i : Item} (hi : i ∈ arityFaults file spec values) :
    OfConsts file i := by
  unfold arityFaults at hi
  split at hi
  · cases List.mem_singleton.mp hi
    exact .fault _ _
  · split at hi
    · cases List.mem_singleton.mp hi
      exact .fault _ _
    · cases hi

theorem ofConsts_of_mem {file : String}
    {last : Option (Option Source.TypeExpr × List Source.Expr)} {iota : Nat}
    {specs : List Source.ConstSpec} {i : Item} (hi : i ∈ ofConstSpecs file last iota specs) :
    OfConsts file i := by
  induction specs generalizing last iota with
  | nil => cases hi
  | cons spec rest ih =>
      rw [ofConstSpecs] at hi
      rcases List.mem_append.mp hi with hfront | hrest
      · rcases List.mem_append.mp hfront with hfault | hname
        · exact ofConsts_of_mem_faults hfault
        · exact ofConsts_of_mem_names hname
      · exact ih hrest

/-- What a declaration leads to, by its form. -/
inductive OfDecl (file : String) : Source.Decl -> Item -> Prop where
  | malformed {specs : List Source.ImportSpec} (line : Nat) :
      OfDecl file (.imports specs) (.fault file line .malformedImport)
  | binding {specs : List Source.ImportSpec} (line : Nat) (label : Option Source.ImportLabel)
      (path : String) : OfDecl file (.imports specs) (.binding file line label path)
  | type {specs : List Source.TypeSpec} {spec : Source.TypeSpec} (h : spec ∈ specs) :
      OfDecl file (.types specs) (.claim file spec.name (.type spec))
  | const {specs : List Source.ConstSpec} {i : Item} (h : i ∈ ofConstSpecs file none 0 specs) :
      OfDecl file (.consts specs) i
  | var {names : List Source.Extent} (x : Source.Extent) :
      OfDecl file (.vars names) (.claim file x .other)
  | func (x : Source.Extent) : OfDecl file (.func x) (.claim file x .other)
  | method (d : Source.MethodDecl) : OfDecl file (.method d) (.method ⟨file, d⟩)

theorem ofDecl_of_mem {file : String} {d : Source.Decl} {i : Item} (h : i ∈ ofDecl file d) :
    OfDecl file d i := by
  cases d with
  | imports specs =>
      obtain ⟨spec, _, hspec⟩ := List.mem_flatMap.mp h
      unfold ofImport at hspec
      split at hspec
      · cases List.mem_singleton.mp hspec
        exact .malformed _
      · cases hspec
      · cases List.mem_singleton.mp hspec
        exact .binding _ _ _
  | types specs =>
      obtain ⟨spec, hspec, rfl⟩ := List.mem_map.mp h
      exact .type hspec
  | consts specs => exact .const h
  | vars names =>
      obtain ⟨x, _, rfl⟩ := List.mem_map.mp h
      exact .var x
  | func x =>
      simp only [ofDecl] at h
      split at h
      · cases h
      · cases List.mem_singleton.mp h
        exact .func x
  | method d =>
      cases List.mem_singleton.mp h
      exact .method d
  | package clause name => cases h
  | statement => cases h

end Item

def LoadedPackage.items (p : LoadedPackage) : List Item :=
  p.checkedFiles.flatMap Item.ofFile

/-!
# What an item does
-/

namespace Collection

def complain (file : String) (line : Nat) (complaint : Complaint) (c : Collection) : Collection :=
  { c with errors := c.errors ++ [⟨complaint, false, some file, some line⟩] }

def updateScope (f : Scope -> Scope) (c : Collection) : Collection :=
  { c with scope := f c.scope }

def learn (answers : Answers) (file : String) (line : Nat) (path : String) (c : Collection) :
    Collection :=
  match c.packages.get? path with
  | some _ => c
  | none =>
      { c with
        packages := c.packages.insert path (answers path).toOption
        errors := c.errors ++ Collect.importFaults file line path (answers path) }

def packageOf (answers : Answers) (path : String) (c : Collection) : Option Package :=
  if path == "unsafe" then none else (c.packages.get? path).getD (answers path).toOption

def bindingOf (answers : Answers) (path : String) (c : Collection) : Binding :=
  ⟨path, c.packageOf answers path, path == "unsafe"⟩

def bound (answers : Answers) (file : String) (line : Nat) (path : String) (c : Collection) :
    Collection :=
  (if path == "unsafe" then c else c.learn answers file line path).updateScope fun s =>
    { s with importPaths := s.importPaths ++ [path] }

def addNamed (file label : String) (b : Binding) (line : Nat) : Collection -> Collection :=
  updateScope fun s => s.updateFile file fun f =>
    { f with
      imports := f.imports.insert label b
      named := f.named ++ [(label, b.path, line)] }

def addBinding (file : String) (label : Option Source.ImportLabel) (b : Binding) (line : Nat)
    (c : Collection) : Collection :=
  match label with
  | some .dot => c.updateScope fun s => s.updateFile file fun f => { f with dots := f.dots ++ [b] }
  | some .blank => c
  | some (.named x) => c.addNamed file x.text b line
  | none => c.addNamed file (Collect.defaultLabel b) b line

def addClaim (file name : String) : Claim -> Scope -> Scope
  | .type spec, s => { s with types := s.types.insert name ⟨file, spec⟩ }
  | .const spec type expr iota, s =>
      { s with consts := s.consts ++ [⟨name, file, spec, type, expr, iota⟩] }
  | .other, s => { s with others := s.others ++ [name] }

end Collection

namespace Item

def apply (answers : Answers) : Item -> Collection -> Collection
  | opening file qualifiers, c =>
      c.updateScope fun s => s.updateFile file fun _ => FileScope.ofQualifiers qualifiers
  | binding file line label path, c =>
      (c.bound answers file line path).addBinding file label (c.bindingOf answers path) line
  | fault file line complaint, c => c.complain file line complaint
  | claim file x what, c =>
      if x.text == "_" then c
      else if c.scope.claims x.text then c.complain file x.line (.redeclared x.text)
      else c.updateScope (Collection.addClaim file x.text what)
  | method m, c => c.updateScope fun s => { s with methods := s.methods ++ [m] }

def applyAll (answers : Answers) (items : List Item) (c : Collection) : Collection :=
  items.foldl (fun c i => i.apply answers c) c

theorem applyAll_append (answers : Answers) (front back : List Item) (c : Collection) :
    applyAll answers (front ++ back) c = applyAll answers back (applyAll answers front c) :=
  List.foldl_append

end Item

namespace Collect

/-!
# The pass does what its items say
-/

def Does (answers : Answers) (m : Collect Unit) (f : Collection -> Collection) : Prop :=
  forall c, (m.run c).under answers = ((), f c)

variable {answers : Answers}

namespace Does

theorem nothing : Does answers (pure ()) id := fun _ => rfl

theorem bind {m n : Collect Unit} {f g : Collection -> Collection} (hm : Does answers m f)
    (hn : Does answers n g) : Does answers (m >>= fun _ => n) fun c => g (f c) := by
  intro c
  rw [StateT.run_bind, Inquiry.under_bind, hm c]
  exact hn (f c)

theorem forM {α : Type} {step : α -> Collect Unit} {items : α -> List Item}
    (hstep : forall a, Does answers (step a) (Item.applyAll answers (items a))) (xs : List α) :
    Does answers (xs.forM step) (Item.applyAll answers (xs.flatMap items)) := by
  induction xs with
  | nil => exact nothing
  | cons a rest ih =>
      intro c
      rw [List.flatMap_cons, Item.applyAll_append]
      exact bind (hstep a) ih c

end Does

theorem does_updateScope (f : Scope -> Scope) :
    Does answers (updateScope f) (Collection.updateScope f) := fun _ => rfl

theorem under_bind (file : String) (line : Nat) (path : String) (c : Collection) :
    ((Collect.bind file line path).run c).under answers =
      (c.bindingOf answers path, c.bound answers file line path) := by
  unfold Collect.bind Collection.bindingOf Collection.bound Collection.packageOf
  dsimp only
  split
  · rfl
  · unfold Collection.learn
    cases hknown : c.packages.get? path with
    | some known =>
        rw [StateT.run_bind, run_importPackage_known hknown, pure_bind]
        rfl
    | none =>
        rw [StateT.run_bind, run_importPackage_new hknown]
        rfl

theorem ofImport_of_read {file : String} {spec : Source.ImportSpec} {path : String}
    (h : Literal.string? spec.path.text = some path) (hpath : path ≠ "C") :
    Item.ofImport file spec = [.binding file spec.extent.line spec.label path] := by
  unfold Item.ofImport
  split
  · next hnone => cases hnone.symm.trans h
  · next hc => exact absurd (Option.some.inj (h.symm.trans hc)) hpath
  · next other _ hsame =>
      cases h.symm.trans hsame
      rfl

theorem does_importSpec (file : String) (spec : Source.ImportSpec) :
    Does answers (importSpec file spec) (Item.applyAll answers (Item.ofImport file spec)) := by
  unfold importSpec
  dsimp only
  split
  · next hread =>
      unfold Item.ofImport
      rw [hread]
      exact fun _ => rfl
  · next hread =>
      unfold Item.ofImport
      rw [hread]
      exact Does.nothing
  · next path hpath hread =>
      intro c
      rw [ofImport_of_read hread hpath, StateT.run_bind, Inquiry.under_bind, under_bind]
      show _ = ((), Collection.addBinding file spec.label (c.bindingOf answers path)
        spec.extent.line (c.bound answers file spec.extent.line path))
      unfold Collection.addBinding
      cases spec.label with
      | none => rfl
      | some label =>
          cases label with
          | dot => rfl
          | blank => rfl
          | named x => rfl

theorem does_claim (file : String) (x : Source.Extent) (what : Claim) {m : Collect Unit}
    (hm : Does answers m (Collection.updateScope (Collection.addClaim file x.text what))) :
    Does answers (do if ← declare file x then m) ((Item.claim file x what).apply answers) := by
  intro c
  unfold declare Item.apply
  dsimp only
  split
  · rfl
  · rw [StateT.run_bind, Inquiry.under_bind, StateT.run_bind, StateT.run_get, pure_bind]
    split
    · rfl
    · exact hm c

theorem does_typeSpec (file : String) (spec : Source.TypeSpec) :
    Does answers (typeSpec file spec) ((Item.claim file spec.name (.type spec)).apply answers) :=
  does_claim file spec.name (.type spec) (does_updateScope _)

theorem does_otherName (file : String) (x : Source.Extent) :
    Does answers (otherName file x) ((Item.claim file x .other).apply answers) :=
  does_claim file x .other (does_updateScope _)

theorem does_constNames (file : String) (spec : Source.Extent) (type : Option Source.TypeExpr)
    (iota : Nat) (names : List Source.Extent) (values : List Source.Expr) :
    Does answers (constNames file spec type iota names values)
      (Item.applyAll answers (Item.ofConstNames file spec type iota names values)) := by
  induction names generalizing values with
  | nil => exact Does.nothing
  | cons x names ih =>
      -- The rest follows in both branches of the declaration.
      have hclaim : Does answers (do
          if ← declare file x then
            updateScope fun s =>
              { s with consts := s.consts ++ [⟨x.text, file, spec, type, values.head?, iota⟩] })
          ((Item.claim file x (.const spec type values.head? iota)).apply answers) :=
        does_claim file x (.const spec type values.head? iota) (does_updateScope _)
      have hboth : constNames file spec type iota (x :: names) values = (do
          if ← declare file x then
            updateScope fun s =>
              { s with consts := s.consts ++ [⟨x.text, file, spec, type, values.head?, iota⟩] }) >>=
          fun _ => constNames file spec type iota names values.tail := by
        rw [constNames, bind_assoc]
        refine congrArg (declare file x >>= ·) (funext fun isFree => ?_)
        cases isFree with
        | true => rfl
        | false => rfl
      rw [hboth]
      exact hclaim.bind (ih values.tail)

theorem does_constSpecs (file : String)
    (last : Option (Option Source.TypeExpr × List Source.Expr)) (iota : Nat)
    (specs : List Source.ConstSpec) :
    Does answers (constSpecs file last iota specs)
      (Item.applyAll answers (Item.ofConstSpecs file last iota specs)) := by
  induction specs generalizing last iota with
  | nil => exact Does.nothing
  | cons spec rest ih =>
      have hrest : forall (type : Option Source.TypeExpr) (values : List Source.Expr)
          (last : Option (Option Source.TypeExpr × List Source.Expr)), Does answers (do
            constNames file spec.extent type iota spec.names values
            constSpecs file last (iota + 1) rest)
          (Item.applyAll answers (Item.ofConstNames file spec.extent type iota spec.names values ++
            Item.ofConstSpecs file last (iota + 1) rest)) := by
        intro type values last c
        rw [Item.applyAll_append]
        exact (does_constNames file spec.extent type iota spec.names values).bind
          (ih last (iota + 1)) c
      intro c
      unfold constSpecs Item.ofConstSpecs Item.arityFaults
      dsimp only
      rw [List.append_assoc]
      split
      · exact hrest _ _ _ _
      · split
        · exact hrest _ _ _ _
        · exact hrest _ _ _ c

theorem does_decl (file : String) (d : Source.Decl) :
    Does answers (decl file d) (Item.applyAll answers (Item.ofDecl file d)) := by
  cases d with
  | imports specs => exact Does.forM (does_importSpec file) specs
  | types specs =>
      have hspecs : Does answers (specs.forM (typeSpec file)) (Item.applyAll answers
          (specs.flatMap fun spec => [Item.claim file spec.name (.type spec)])) :=
        Does.forM (does_typeSpec file) specs
      rw [← List.map_eq_flatMap] at hspecs
      exact hspecs
  | consts specs => exact does_constSpecs file none 0 specs
  | vars names =>
      have hnames : Does answers (names.forM (otherName file)) (Item.applyAll answers
          (names.flatMap fun x => [Item.claim file x .other])) :=
        Does.forM (does_otherName file) names
      rw [← List.map_eq_flatMap] at hnames
      exact hnames
  | func name =>
      unfold decl Item.ofDecl
      dsimp only
      split
      · exact Does.nothing
      · exact does_otherName file name
  | method d =>
      exact does_updateScope fun s => { s with methods := s.methods ++ [⟨file, d⟩] }
  | package clause name => exact Does.nothing
  | statement => exact Does.nothing

theorem does_fileDecls (f : String × Source.File) :
    Does answers (fileDecls f.1 f.2) (Item.applyAll answers (Item.ofFile f)) := by
  have hopening : Does answers _ _ := does_updateScope fun s =>
    s.updateFile f.1 fun _ => FileScope.ofQualifiers f.2.qualifiers
  exact hopening.bind (Does.forM (does_decl f.1) f.2.decls)

end Collect

/-- The first pass does what the items of the package say. -/
theorem under_collect_eq (p : LoadedPackage) (answers : Answers) :
    (collect p).under answers = Item.applyAll answers p.items (Collection.start p) := by
  have hpass : Collect.Does answers (collecting p) (Item.applyAll answers p.items) :=
    Collect.Does.forM Collect.does_fileDecls p.checkedFiles
  rw [under_collect, hpass]

end GoAtlas
