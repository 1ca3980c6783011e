import GoAtlas.Proofs.Check.Elsewhere
import GoAtlas.Proofs.Check.OrderIndependence

/-!
# Groups of constants

A line of constants without type and values repeats those of the nearest earlier line with values.
A group is checked line by line, each by what it says or repeats and with its number as `iota`, so
a package in which the lines of groups say what they repeat is checked with the same outcome,
places aside.
-/

namespace GoAtlas
namespace Source

/-!
# Expansion
-/

namespace ConstSpec

def nearest? (earlier : List ConstSpec) : Option ConstSpec :=
  (earlier.filter fun spec => spec.values.isSome).getLast?

/-- Without type and values, a line gets those of the nearest earlier line with values. -/
def filled (earlier : List ConstSpec) (spec : ConstSpec) : ConstSpec :=
  match spec.type, spec.values, nearest? earlier with
  | none, none, some source => { spec with type := source.type, values := source.values }
  | _, _, _ => spec

def expandFrom (earlier : List ConstSpec) : List ConstSpec -> List ConstSpec
  | [] => []
  | spec :: rest => spec.filled earlier :: expandFrom (earlier ++ [spec]) rest

def expand (specs : List ConstSpec) : List ConstSpec :=
  expandFrom [] specs

def Moved (spec spec' : ConstSpec) : Prop :=
  exists f x, KeepsText f ∧ spec' = { spec.relocate f with extent := x }

def content (spec : ConstSpec) : Option TypeExpr × List Expr :=
  (spec.type, spec.values.getD [])

theorem nearest?_concat (earlier : List ConstSpec) (spec : ConstSpec) :
    nearest? (earlier ++ [spec]) = if spec.values.isSome then some spec else nearest? earlier := by
  unfold nearest?
  rw [List.filter_append, List.filter_singleton]
  cases spec.values.isSome with
  | true => exact List.getLast?_concat
  | false => exact congrArg List.getLast? (List.append_nil _)

theorem filled_of_values {earlier : List ConstSpec} {spec : ConstSpec} {values : List Expr}
    (h : spec.values = some values) : spec.filled earlier = spec := by
  unfold filled
  rw [h]
  cases spec.type with
  | none => rfl
  | some type => rfl

theorem filled_names (earlier : List ConstSpec) (spec : ConstSpec) :
    (spec.filled earlier).names = spec.names ∧ (spec.filled earlier).extent = spec.extent := by
  unfold filled
  split
  · exact ⟨rfl, rfl⟩
  · exact ⟨rfl, rfl⟩

theorem isSome_values_of_nearest? {earlier : List ConstSpec} {source : ConstSpec}
    (h : nearest? earlier = some source) : source.values.isSome = true :=
  (List.mem_filter.mp (List.mem_of_getLast? h)).2

theorem filled_of_nearest? {earlier : List ConstSpec} (h : nearest? earlier = none)
    (spec : ConstSpec) : spec.filled earlier = spec := by
  unfold filled
  rw [h]
  rcases spec with ⟨x, names, _ | type, _ | values⟩ <;> rfl

/-- A filled line has no values and no type only where there is nothing to repeat. -/
theorem nearest?_of_filled {earlier : List ConstSpec} {spec : ConstSpec}
    (htype : (spec.filled earlier).type = none) (hvalues : (spec.filled earlier).values = none) :
    nearest? earlier = none := by
  rcases spec with ⟨x, names, _ | type, _ | values⟩
  · cases hnearest : nearest? earlier with
    | none => rfl
    | some source =>
        unfold filled at hvalues
        rw [hnearest] at hvalues
        have hsome := isSome_values_of_nearest? hnearest
        rw [show source.values = none from hvalues] at hsome
        cases hsome
  · rw [filled_of_values rfl] at hvalues
    cases hvalues
  · unfold filled at htype
    cases htype
  · unfold filled at htype
    cases htype

end ConstSpec
end Source

/-!
# Line by line
-/

namespace Collect

open Source (ConstSpec)

theorem repeated_nearest? (earlier : List ConstSpec) (spec : ConstSpec) :
    repeated ((ConstSpec.nearest? earlier).map ConstSpec.content) spec =
      (spec.filled earlier).content := by
  rcases spec with ⟨x, names, _ | type, _ | values⟩
  · unfold ConstSpec.filled repeated
    cases ConstSpec.nearest? earlier with
    | none => rfl
    | some source => rfl
  · rw [ConstSpec.filled_of_values rfl]
    rfl
  · rfl
  · rw [ConstSpec.filled_of_values rfl]
    rfl

def handedOn (last : Option (Option Source.TypeExpr × List Source.Expr)) (spec : ConstSpec) :
    Option (Option Source.TypeExpr × List Source.Expr) :=
  match spec.values with
  | some values => some (spec.type, values)
  | none => last

theorem handedOn_nearest? (earlier : List ConstSpec) (spec : ConstSpec) :
    handedOn ((ConstSpec.nearest? earlier).map ConstSpec.content) spec =
      (ConstSpec.nearest? (earlier ++ [spec])).map ConstSpec.content := by
  rw [ConstSpec.nearest?_concat]
  unfold handedOn ConstSpec.content
  cases hvalues : spec.values with
  | none => rfl
  | some values => simp [hvalues]

def constLine (file : String) (spec : ConstSpec) (iota : Nat) : Collect Unit := do
  let values := spec.values.getD []
  if values.length < spec.names.length then
    complain file spec.extent.line .missingValue
  else if values.length > spec.names.length then
    complain file spec.extent.line .extraValue
  constNames file spec.extent spec.type iota spec.names values

theorem constSpecs_eq (file : String) (earlier specs : List ConstSpec) :
    constSpecs file ((ConstSpec.nearest? earlier).map ConstSpec.content) earlier.length specs =
      ((ConstSpec.expandFrom earlier specs).zipIdx earlier.length).forM fun line =>
        constLine file line.1 line.2 := by
  induction specs generalizing earlier with
  | nil => rfl
  | cons spec rest ih =>
      have hrest := ih (earlier ++ [spec])
      have hcontent := repeated_nearest? earlier spec
      rcases ConstSpec.filled_names earlier spec with ⟨hnames, hextent⟩
      rw [← handedOn_nearest?, List.length_append, List.length_singleton] at hrest
      have hforM : ((ConstSpec.expandFrom earlier (spec :: rest)).zipIdx earlier.length).forM
          (fun line => constLine file line.1 line.2) =
          constLine file (spec.filled earlier) earlier.length >>= fun _ =>
            ((ConstSpec.expandFrom (earlier ++ [spec]) rest).zipIdx (earlier.length + 1)).forM
              fun line => constLine file line.1 line.2 := rfl
      rw [hforM, ← hrest, constSpecs, hcontent]
      unfold ConstSpec.content constLine
      dsimp only
      rw [hnames, hextent]
      split
      · exact (bind_assoc _ _ _).symm
      · split
        · exact (bind_assoc _ _ _).symm
        · rfl

/-- A group is checked like its expansion, each line on its own and with its number as `iota`. -/
theorem decl_consts_eq (file : String) (specs : List ConstSpec) :
    decl file (.consts specs) =
      (ConstSpec.expand specs).zipIdx.forM fun line => constLine file line.1 line.2 :=
  constSpecs_eq file [] specs

end Collect

/-!
# Expanded groups elsewhere
-/

namespace Source

/-- The same declaration, perhaps elsewhere; a group of constants may be expanded. -/
inductive Decl.Expanded : Decl -> Decl -> Prop where
  | moved {d d' : Decl} (h : d.Moved d') : Expanded d d'
  | consts {specs specs' : List ConstSpec}
      (h : List.Forall₂ ConstSpec.Moved (ConstSpec.expand specs) specs') :
      Expanded (.consts specs) (.consts specs')

/-- The same file with expanded groups of constants.  A copy may name qualifiers once more. -/
structure File.Expanded (f f' : File) : Prop where
  decls : List.Forall₂ Decl.Expanded f.decls f'.decls
  qualifiers : forall q, q ∈ f'.qualifiers ↔ q ∈ f.qualifiers

end Source

structure SourceFile.Expanded (s s' : SourceFile) : Prop where
  header : Source.isExcluded s'.bytes s'.file = Source.isExcluded s.bytes s.file
  file : s.file.Expanded s'.file

/-- The same package with expanded groups of constants. -/
structure LoadedPackage.Expanded (p p' : LoadedPackage) : Prop where
  importPath : p'.importPath = p.importPath
  name : p'.name = p.name
  files : p'.files = p.files
  sources : forall name, name ∈ p.files ->
    Option.Rel SourceFile.Expanded (p.source? name) (p'.source? name)

namespace Item

open Source (ConstSpec)

section Lines

variable {f : Source.Extent -> Source.Extent} (hf : Source.KeepsText f) (file : String)

theorem elsewhere_arityFaults {spec spec' : ConstSpec} {values values' : List Source.Expr}
    (hnames : spec'.names.length = spec.names.length) (hvalues : values'.length = values.length) :
    List.Forall₂ Elsewhere (arityFaults file spec values) (arityFaults file spec' values') := by
  have hfault : forall complaint, List.Forall₂ Elsewhere [fault file spec.extent.line complaint]
      [fault file spec'.extent.line complaint] := by
    intro complaint
    exact .cons (.moved (.fault _ _ _ _) fun _ _ h => by cases h) .nil
  unfold arityFaults
  rw [hnames, hvalues]
  split
  · exact hfault .missingValue
  · split
    · exact hfault .extraValue
    · exact .nil

include hf

theorem elsewhere_ofConstNames (spec spec' : Source.Extent) (type : Option Source.TypeExpr)
    (iota : Nat) (names : List Source.Extent) (values : List Source.Expr) :
    List.Forall₂ Elsewhere (ofConstNames file spec type iota names values)
      (ofConstNames file spec' (type.map (Source.TypeExpr.relocate f)) iota (names.map f)
        (values.map (Source.Expr.relocate f))) := by
  induction names generalizing values with
  | nil => exact .nil
  | cons x names ih =>
      rw [List.map_cons, ofConstNames, ofConstNames, List.head?_map, ← List.map_tail]
      exact .cons (.const hf file (hf x) spec spec' type values.head? iota) (ih values.tail)

end Lines

/-- A filled line says elsewhere what it says here, unless it takes something from lines that the
group here does not have. -/
theorem repeated_moved (f : Source.Extent -> Source.Extent) (x : Source.Extent) {spec : ConstSpec}
    {last : Option (Option Source.TypeExpr × List Source.Expr)}
    (hlast : spec.type = none -> spec.values = none -> last = none) :
    Collect.repeated last { spec.relocate f with extent := x } = relocateLast f spec.content := by
  rcases spec with ⟨y, names, _ | type, _ | values⟩
  · rw [hlast rfl rfl]
    rfl
  · rfl
  · rfl
  · rfl

theorem ofConstSpecs_cons (file : String)
    (last : Option (Option Source.TypeExpr × List Source.Expr)) (iota : Nat) (spec : ConstSpec)
    (rest : List ConstSpec) :
    ofConstSpecs file last iota (spec :: rest) =
      arityFaults file spec (Collect.repeated last spec).2 ++
        ofConstNames file spec.extent (Collect.repeated last spec).1 iota spec.names
          (Collect.repeated last spec).2 ++
        ofConstSpecs file (Collect.handedOn last spec) (iota + 1) rest := rfl

theorem elsewhere_ofConstSpecs (file : String) {earlier specs specs' : List ConstSpec}
    (h : List.Forall₂ ConstSpec.Moved (ConstSpec.expandFrom earlier specs) specs')
    {last : Option (Option Source.TypeExpr × List Source.Expr)}
    (hlast : ConstSpec.nearest? earlier = none -> last = none) (iota : Nat) :
    List.Forall₂ Elsewhere
      (ofConstSpecs file ((ConstSpec.nearest? earlier).map ConstSpec.content) iota specs)
      (ofConstSpecs file last iota specs') := by
  induction specs generalizing earlier specs' last iota with
  | nil =>
      cases h
      exact .nil
  | cons spec rest ih =>
      rcases h with _ | ⟨⟨f, x, hf, rfl⟩, hrest⟩
      have hnames := (ConstSpec.filled_names earlier spec).1
      have hmoved : Collect.repeated last { (spec.filled earlier).relocate f with extent := x } =
          relocateLast f (spec.filled earlier).content :=
        repeated_moved f x fun htype hvalues =>
          hlast (ConstSpec.nearest?_of_filled htype hvalues)
      have hnext : ConstSpec.nearest? (earlier ++ [spec]) = none ->
          Collect.handedOn last { (spec.filled earlier).relocate f with extent := x } = none := by
        intro hnone
        rw [ConstSpec.nearest?_concat] at hnone
        cases hvalues : spec.values with
        | some values =>
            rw [hvalues] at hnone
            cases hnone
        | none =>
            rw [hvalues] at hnone
            rw [ConstSpec.filled_of_nearest? hnone]
            unfold Collect.handedOn Source.ConstSpec.relocate
            dsimp only
            rw [hvalues]
            exact hlast hnone
      rw [ofConstSpecs_cons, ofConstSpecs_cons, hmoved, Collect.repeated_nearest?,
        Collect.handedOn_nearest?]
      refine List.rel_append (List.rel_append (elsewhere_arityFaults file ?_ ?_) ?_)
        (ih hrest hnext (iota + 1))
      · rw [← hnames]
        exact List.length_map f
      · exact List.length_map (Source.Expr.relocate f)
      · rw [← hnames]
        exact elsewhere_ofConstNames hf file spec.extent x _ iota _ _

theorem opening_notMem_ofDecl {file name : String} {qualifiers : List String} {d : Source.Decl} :
    opening name qualifiers ∉ ofDecl file d := by
  intro h
  cases ofDecl_of_mem h with
  | const hi => cases ofConsts_of_mem hi

theorem elsewhere_ofDecl (file : String) {d d' : Source.Decl} (h : d.Expanded d') :
    List.Forall₂ Elsewhere (ofDecl file d) (ofDecl file d') := by
  cases h with
  | moved hmoved =>
      rcases hmoved with ⟨f, hf, rfl⟩
      have hitems := (List.forall₂_and_left _ _).mpr
        ⟨fun i hi => hi, moved_ofDecl hf file d⟩
      refine hitems.imp ?_
      rintro i i' ⟨hi, hmoved⟩
      refine .moved hmoved ?_
      rintro name qualifiers rfl
      exact opening_notMem_ofDecl hi
  | consts hspecs => exact elsewhere_ofConstSpecs file hspecs (fun _ => rfl) 0

theorem elsewhere_ofFile (name : String) {file file' : Source.File} (h : file.Expanded file') :
    List.Forall₂ Elsewhere (ofFile (name, file)) (ofFile (name, file')) :=
  .cons (.opening name h.qualifiers)
    (List.rel_flatMap h.decls fun _ _ hd => elsewhere_ofDecl name hd)

end Item

namespace LoadedPackage.Expanded

variable {p p' : LoadedPackage}

theorem checkedFiles (h : p.Expanded p') :
    List.Forall₂ (fun f f' => f'.1 = f.1 ∧ f.2.Expanded f'.2) p.checkedFiles p'.checkedFiles := by
  have hnames : List.Forall₂ (fun name name' => name = name' ∧ name ∈ p.files) p.files p.files :=
    List.forall₂_same.mpr fun name hname => ⟨rfl, hname⟩
  unfold LoadedPackage.checkedFiles
  rw [h.files]
  refine List.rel_filterMap ?_ hnames
  rintro name _ ⟨rfl, hname⟩
  have hsources := h.sources name hname
  show Option.Rel _ ((p.source? name).bind _) ((p'.source? name).bind _)
  generalize p.source? name = s, p'.source? name = s' at hsources ⊢
  cases hsources with
  | none => exact .none
  | some hsource =>
      rw [Option.bind_some, Option.bind_some, hsource.header]
      split
      · exact .none
      · exact .some ⟨rfl, hsource.file⟩

theorem items (h : p.Expanded p') : List.Forall₂ Item.Elsewhere p.items p'.items := by
  refine List.rel_flatMap h.checkedFiles ?_
  rintro ⟨name, file⟩ ⟨name', file'⟩ ⟨hname, hfile⟩
  cases hname
  exact Item.elsewhere_ofFile name hfile

end LoadedPackage.Expanded

/-- A group of constants means its expansion: its lines are checked one by one when they have
copies of what they repeat, each with its number as `iota`, and a package in which groups are
expanded is checked with the same outcome, places aside. -/
theorem checkGo_expanded {σ σ' : Type} {answers : Answers} {importer : String -> σ -> Answer × σ}
    {importer' : String -> σ' -> Answer × σ'} (himporter : forall q s, (importer q s).1 = answers q)
    (himporter' : forall q s, (importer' q s).1 = answers q) {p p' : LoadedPackage}
    (h : p.Expanded p') (s : σ) (s' : σ') :
    (forall file specs, Collect.decl file (.consts specs) =
        (Source.ConstSpec.expand specs).zipIdx.forM fun line =>
          Collect.constLine file line.1 line.2) ∧
      ((checkGo p').run importer' s').1.unplaced = ((checkGo p).run importer s).1.unplaced := by
  rw [Inquiry.run_of_answers himporter, Inquiry.run_of_answers himporter']
  exact ⟨Collect.decl_consts_eq, under_checkGo_elsewhere h.importPath h.name h.items answers⟩

def flagLine (line : Nat) (name : String) (full : Bool) : Source.ConstSpec :=
  if full then
    ⟨.onLine line (name ++ " uint8 = 1 << iota"), [.onLine line name],
      some (.name (.onLine line "uint8")),
      some [.binary (.onLine line "1 << iota") .shiftLeft (.int (.onLine line "1"))
        (.iota (.onLine line "iota"))]⟩
  else ⟨.onLine line name, [.onLine line name], none, none⟩

/-- A group of flags, with a blank and with a name that is taken.  After the first line the flags
are in full or not. -/
def flagsPackage (full : Bool) : LoadedPackage :=
  ⟨⟨"/p"⟩, "p", "p", ["p.go"],
    [("p.go", ⟨[], ⟨[.consts [flagLine 1 "A" true, flagLine 2 "_" full, flagLine 3 "B" full,
      flagLine 4 "A" full]], [], []⟩⟩)]⟩

theorem expanded_flagsPackage : (flagsPackage false).Expanded (flagsPackage true) where
  importPath := rfl
  name := rfl
  files := rfl
  sources name hname := by
    have hline : forall line : Nat, Source.KeepsText fun x => { x with line := line } :=
      fun _ _ => rfl
    rcases List.mem_singleton.mp hname with rfl
    refine Option.Rel.some ⟨rfl, .cons (.consts ?_) .nil, fun _ => Iff.rfl⟩
    exact .cons ⟨_, _, hline 1, rfl⟩ (.cons ⟨_, _, hline 2, rfl⟩
      (.cons ⟨_, _, hline 3, rfl⟩ (.cons ⟨_, _, hline 4, rfl⟩ .nil)))

theorem checkGo_expanded_flagsPackage :
    ((checkGo (flagsPackage false)).run refusal 0).1.package.consts.map
        (fun c => (c.name, c.value)) = [("A", .int 1), ("B", .int 4)] ∧
      ((checkGo (flagsPackage true)).run refusal 7).1.unplaced =
        ((checkGo (flagsPackage false)).run refusal 0).1.unplaced := by
  have hanswers : forall q s, (refusal q s).1 = .error (.packageNotFound q) := fun _ _ => rfl
  exact ⟨rfl, (checkGo_expanded hanswers hanswers expanded_flagsPackage 0 7).2⟩

end GoAtlas
