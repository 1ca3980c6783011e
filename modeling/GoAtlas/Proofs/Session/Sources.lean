import GoAtlas.Proofs.Check.Spans
import GoAtlas.Proofs.Session.PackageLaws
import GoAtlas.Proofs.Session.Queries
import GoAtlas.Session.Declaration

/-!
# Declarations that can be cut out again

A session keeps the sources of every package it checked, and the spans of the definitions it
indexed.  Index, packages and sources stem from the same load, so the declaration of an indexed
definition is where its span says.
-/

namespace GoAtlas

def Package.Sourced (p : Package) : Prop :=
  p.kind.isSource = true -> exists source, p.source = some source ∧
    forall name d, p.type? name = some d -> exists file f spec, source.Declares file f spec d

namespace LoadedPackage

variable {p : LoadedPackage} {file : String} {source : SourceFile} {start stop : Nat}

theorem contents?_of_source? (h : p.source? file = some source) :
    p.contents? file = some source.bytes := by
  unfold contents?
  rw [h]
  rfl

theorem slice?_of_source? (h : p.source? file = some source) (hordered : start ≤ stop)
    (hinside : stop ≤ source.bytes.length) :
    p.slice? file start stop = some ((source.bytes.take stop).drop start) := by
  unfold slice?
  rw [contents?_of_source? h]
  simp [hordered, hinside]

end LoadedPackage

namespace Session

/-!
# Packages and their sources
-/

theorem packageLaw_sourced (registry : Registry) : PackageLaw registry Package.Sourced where
  system path dir := by
    intro hsource
    rw [kind_systemPackage] at hsource
    cases hsource
  checked tree tests dir path kind source answers hload _ index hpath haccepts := by
    intro _
    refine ⟨source, rfl, ?_⟩
    intro name d hd
    exact declares_of_mem_types answers hload ((Package.get?_typeTable_iff hpath haccepts).mp hd).1

/-!
# Indexed definitions
-/

/-- A session traces a definition back to its declaration: `spec` in the file `f` of `source`. -/
structure TracesTo (s : Session) (d : TypeDef) (source : LoadedPackage) (file : String)
    (f : SourceFile) (spec : Source.TypeSpec) : Prop where
  package : exists p, s.package? d.name.packagePath = some p ∧ p.source = some source
  declares : source.Declares file f spec d
  declaration : s.declaration d.name = .ok ⟨d, source, Scope.spanOf file spec.extent⟩

namespace TracesTo

variable {s : Session} {d : TypeDef} {source : LoadedPackage} {file : String} {f : SourceFile}
  {spec : Source.TypeSpec}

theorem sourceText (h : s.TracesTo d source file f spec) : s.sourceText d.name =
    .ok ((f.bytes.take spec.extent.stop).drop spec.extent.start) := by
  have hslice := LoadedPackage.slice?_of_source? h.declares.read h.declares.bytes.ordered
    h.declares.bytes.inside
  unfold Session.sourceText
  rw [h.declaration]
  simp only [bind, Except.bind, Scope.spanOf, hslice]
  rfl

theorem name_prefix (h : s.TracesTo d source file f spec) : Text.encode d.name.name <+:
    (f.bytes.take spec.extent.stop).drop spec.extent.start := by
  rw [h.declares.name]
  exact h.declares.bytes.named

theorem typeDoc (h : s.TracesTo d source file f spec) : s.typeDoc d.name =
    .ok (Comment.ofExtent f.bytes spec.extent.start spec.extent.stop) := by
  unfold Session.typeDoc
  rw [h.declaration]
  simp only [bind, Except.bind, Scope.spanOf, LoadedPackage.contents?_of_source? h.declares.read,
    Option.getD_some]
  rfl

theorem fieldDoc (h : s.TracesTo d source file f spec)
    (hfields : d.underlying.fields?.isSome = true) (field : String) :
    exists text, s.fieldDoc d.name field = .ok text := by
  have hstruct : d.underlying.fields?.isNone = false := by simpa using hfields
  unfold Session.fieldDoc
  rw [h.declaration]
  simp only [bind, Except.bind, Scope.spanOf, hstruct, h.declares.read, Bool.false_eq_true,
    if_false]
  split
  · exact ⟨"", rfl⟩
  · next x _ => exact ⟨Comment.ofExtent f.bytes x.extent.start x.extent.stop, rfl⟩

end TracesTo

theorem Consistent.tracesTo_of_indexed {s : Session} (h : s.Consistent)
    (hsourced : s.Obeys Package.Sourced) {d : TypeDef} (hd : d ∈ s.index.definitions) :
    exists source file f spec, s.TracesTo d source file f spec := by
  obtain ⟨path, p, hp, hkind, hvalue⟩ := h.mem_definitions_iff.mp hd
  obtain ⟨name, htype, hname⟩ := h.name_of_mem_values hp hkind hvalue
  obtain ⟨source, hsource, htypes⟩ := hsourced.packages path p hp hkind
  obtain ⟨file, f, spec, hdeclares⟩ := htypes name d htype
  have hpackage : s.package? d.name.packagePath = some p := by
    rw [hname]
    exact package?_eq_some_iff.mpr hp
  refine ⟨source, file, f, spec, ⟨p, hpackage, hsource⟩, hdeclares, ?_⟩
  have hobject : s.object? d.name = some d := h.get?_of_indexed hd rfl
  unfold declaration
  rw [hobject, hpackage]
  simp only [Option.bind_some, hsource, hdeclares.span]

structure Recovers (s : Session) (d : TypeDef) : Prop where
  /-- The span lies in a file of the sources of the package.  From there the session cuts the
  type declaration, which begins with the name of the type. -/
  text : exists p source file f spec, s.package? d.name.packagePath = some p ∧
    p.source = some source ∧ source.Declares file f spec d ∧
    s.sourceText d.name = .ok ((f.bytes.take spec.extent.stop).drop spec.extent.start) ∧
    Text.encode d.name.name <+: (f.bytes.take spec.extent.stop).drop spec.extent.start
  doc : exists text, s.typeDoc d.name = .ok text
  fieldDoc : d.underlying.fields?.isSome = true ->
    forall field, exists text, s.fieldDoc d.name field = .ok text

/-- After any sequence of operations, the declaration of every indexed definition is there. -/
theorem recovers_after (tree : FileTree) (roots : SearchRoots) (options : Options)
    (ops : List Operation) {d : TypeDef}
    (hd : d ∈ (after (goSetup tree roots options) ops).index.definitions) :
    (after (goSetup tree roots options) ops).Recovers d := by
  have hsourced : (after (goSetup tree roots options) ops).Obeys Package.Sourced :=
    obeys_after rfl (packageLaw_sourced _) ops
  obtain ⟨source, file, f, spec, hplace⟩ :=
    (consistent_after (goSetup tree roots options) ops).tracesTo_of_indexed hsourced hd
  constructor
  · obtain ⟨p, hpackage, hsource⟩ := hplace.package
    exact ⟨p, source, file, f, spec, hpackage, hsource, hplace.declares, hplace.sourceText,
      hplace.name_prefix⟩
  · exact ⟨_, hplace.typeDoc⟩
  · intro hfields field
    exact hplace.fieldDoc hfields field

/-- The struct of a package that imports another one. -/
theorem recovers_after_pair : exists d,
    (after (goSetup pairTree pairRoots ⟨false, false⟩) [.resolve "a"]).object?
      (.declared "a" "T") = some d ∧
    (after (goSetup pairTree pairRoots ⟨false, false⟩) [.resolve "a"]).Recovers d := by
  have hsome : ((after (goSetup pairTree pairRoots ⟨false, false⟩) [.resolve "a"]).object?
      (.declared "a" "T")).isSome = true := by
    decide +kernel
  obtain ⟨d, hd⟩ := Option.isSome_iff_exists.mp hsome
  refine ⟨d, hd, recovers_after pairTree pairRoots ⟨false, false⟩ [.resolve "a"] ?_⟩
  exact Table.mem_values_iff.mpr ⟨_, hd⟩

end Session
end GoAtlas
