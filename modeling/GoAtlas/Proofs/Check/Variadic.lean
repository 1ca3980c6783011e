import GoAtlas.Proofs.Check.Shapes

/-!
# The flag of variadic signatures

A signature carries a flag that its last parameter collects the rest of the arguments.  The flag
is set by a variadic parameter anywhere in the list, so it tells the truth exactly of the lists
that have no such parameter before the last one, or have another one in the last place.
-/

namespace GoAtlas
namespace Source

def EndsVariadic (params : List Param) : Prop :=
  exists front name type, params = front ++ [.variadic name type]

/-- The flag is set only if the last parameter is variadic and its type is the slice that the rest
of the arguments is collected in. -/
def Truthful (params : List Param) (s : Signature GoType) : Prop :=
  s.variadic = true -> exists front name type types elem,
    params = front ++ [.variadic name type] ∧ s.params = types ++ [.slice elem] ∧ type.Shapes elem

structure Signs (params results : List Param) (s : Signature GoType) : Prop where
  taken : List.Forall₂ TypeExpr.Shapes (params.flatMap Param.places) s.params
  returned : List.Forall₂ TypeExpr.Shapes (results.flatMap Param.places) s.results
  variadic : s.variadic = params.any Param.isVariadic

namespace Signs

variable {params results : List Param} {s : Signature GoType}

theorem of_shapes {x : Extent} {type : GoType} (h : (TypeExpr.func x params results).Shapes type) :
    exists s, type = .func s ∧ Signs params results s := by
  cases h with
  | func hparams hresults => exact ⟨_, rfl, hparams, hresults, rfl⟩

theorem collected {front : List Param} {name : Option Extent} {type : TypeExpr}
    (h : Signs (front ++ [.variadic name type]) results s) :
    exists types elem, s.params = types ++ [.slice elem] ∧ type.Shapes elem := by
  have hparams := h.taken.flip
  rw [List.flatMap_append, List.flatMap_singleton] at hparams
  have hlast := List.forall₂_drop_append _ _ _ hparams
  generalize hdrop : s.params.drop (front.flatMap Param.places).length = last at hlast
  cases hlast with
  | cons hslice hnil =>
      cases hnil
      cases hslice with
      | slice helem =>
          refine ⟨s.params.take (front.flatMap Param.places).length, _, ?_, helem⟩
          rw [← hdrop, List.take_append_drop]

theorem truthful_iff (h : Signs params results s) :
    Truthful params s ↔ (params.any Param.isVariadic = true -> EndsVariadic params) := by
  unfold Truthful
  rw [h.variadic]
  constructor
  · intro htruthful hany
    obtain ⟨front, name, type, _, _, heq, _⟩ := htruthful hany
    exact ⟨front, name, type, heq⟩
  · intro hends hany
    obtain ⟨front, name, type, rfl⟩ := hends hany
    obtain ⟨types, elem, heq, helem⟩ := h.collected
    exact ⟨front, name, type, types, elem, rfl, heq, helem⟩

/-- Two signatures with the same types are the same if both lists have a variadic parameter,
wherever it stands, or neither has. -/
theorem eq_iff {params' results' : List Param} {s' : Signature GoType}
    (h : Signs params results s) (h' : Signs params' results' s') :
    s = s' ↔ s.params = s'.params ∧ s.results = s'.results ∧
      params.any Param.isVariadic = params'.any Param.isVariadic := by
  rw [← h.variadic, ← h'.variadic]
  cases s
  cases s'
  rw [Signature.mk.injEq]

end Signs

/-!
# Methods of interfaces
-/

theorem forall₂_of_members {members : List Member} {methods : List (InterfaceMethod GoType)}
    (hnames : methods.map InterfaceMethod.name = members.map Member.name)
    (htypes : List.Forall₂ TypeExpr.Shapes (members.map Member.type)
      (methods.map fun m => .func m.signature)) :
    List.Forall₂ (fun member m => m.name = member.name ∧ member.type.Shapes (.func m.signature))
      members methods := by
  induction members generalizing methods with
  | nil =>
      rw [List.map_eq_nil_iff.mp hnames]
      exact .nil
  | cons member rest ih =>
      cases methods with
      | nil => cases hnames
      | cons m more =>
          obtain ⟨hname, hnames⟩ := List.cons.inj hnames
          cases htypes with
          | cons htype htypes => exact .cons ⟨hname, htype⟩ (ih hnames htypes)

theorem signs_of_interface {x : Extent} {elems : List InterfaceElem} {type : GoType}
    (h : (TypeExpr.interface x elems).Shapes type) :
    exists methods embedded, type = .interface methods embedded ∧
      forall m, m ∈ methods -> exists y name params results,
        .method y name params results ∈ elems ∧ m.name = name.text ∧
          Signs params results m.signature := by
  cases h with
  | @interface _ _ methods embedded hnames htypes _ =>
      refine ⟨methods, embedded, rfl, fun m hm => ?_⟩
      obtain ⟨member, hmember, hname, htype⟩ :=
        exists_mem_left (forall₂_of_members hnames htypes) hm
      obtain ⟨elem, helem, hwritten⟩ := List.mem_flatMap.mp (Member.mem_of_mem_firsts hmember)
      cases elem with
      | union terms => cases hwritten
      | method y name params results =>
          cases List.mem_singleton.mp hwritten
          obtain ⟨s, heq, hsigns⟩ := Signs.of_shapes htype
          cases heq
          exact ⟨y, name, params, results, helem, hname, hsigns⟩

end Source

/-!
# All signatures
-/

/-- How the flag is to be read, for a signature of these parameters and results: it is truthful
unless a variadic parameter stands only before the last one. -/
structure Source.Flagged (params results : List Source.Param) (s : Signature GoType) : Prop where
  signs : Source.Signs params results s
  truthful : Source.Truthful params s ↔
    (params.any Source.Param.isVariadic = true -> Source.EndsVariadic params)

theorem Source.Signs.flagged {params results : List Source.Param} {s : Signature GoType}
    (h : Source.Signs params results s) : Source.Flagged params results s :=
  ⟨h, h.truthful_iff⟩

/-- The signatures that are found in some state, whatever is pending: of function types, of methods
of interfaces, and of method declarations. -/
structure Scope.FlagsSignatures (sc : Scope) (answers : Answers) (links : Links) (file : String)
    (tparams : List String) (p : Progress) : Prop where
  funcs : forall x params results, exists s,
    ((sc.resolveType links file tparams (.func x params results)).outcome answers p).1 = .func s ∧
      Source.Flagged params results s
  interfaces : forall x elems, exists methods embedded,
    ((sc.resolveType links file tparams (.interface x elems)).outcome answers p).1 =
        .interface methods embedded ∧
      forall m, m ∈ methods -> exists y name params results,
        .method y name params results ∈ elems ∧ m.name = name.text ∧
          Source.Flagged params results m.signature
  methods : forall d : Source.MethodDecl, Source.Flagged d.params d.results
    ((sc.signatureWith links file tparams d).outcome answers p).1

/-- Every signature has the types that are written and the flag of any variadic parameter, so
that which parameter is variadic makes no difference between two signatures. -/
theorem Scope.flagsSignatures (sc : Scope) (answers : Answers) (fuel : Nat)
    (pending : List Scope.Pending) (file : String) (tparams : List String) (p : Progress) :
    sc.FlagsSignatures answers (sc.linksWithin fuel pending) file tparams p ∧
    forall {params results params' results' s s'}, Source.Signs params results s ->
      Source.Signs params' results' s' ->
        (s = s' ↔ s.params = s'.params ∧ s.results = s'.results ∧
          params.any Source.Param.isVariadic = params'.any Source.Param.isVariadic) := by
  have hexamined := sc.examined_resolveType answers fuel pending file tparams
  refine ⟨⟨fun x params results => ?_, fun x elems => ?_, fun d => ?_⟩, Source.Signs.eq_iff⟩
  · obtain ⟨s, heq, hsigns⟩ := Source.Signs.of_shapes (hexamined (.func x params results) p).shapes
    exact ⟨s, heq, hsigns.flagged⟩
  · obtain ⟨methods, embedded, heq, hmethods⟩ :=
      Source.signs_of_interface (hexamined (.interface x elems) p).shapes
    refine ⟨methods, embedded, heq, fun m hm => ?_⟩
    obtain ⟨y, name, params, results, hmem, hname, hsigns⟩ := hmethods m hm
    exact ⟨y, name, params, results, hmem, hname, hsigns.flagged⟩
  · have hlinks := sc.provides_of_steady answers (sc.steady_linksWithin fuel pending)
    obtain ⟨hmakes, -⟩ := voices_signatureWith hlinks file tparams d p trivial
    obtain ⟨s, heq, hsigns⟩ := Source.Signs.of_shapes hmakes.1
    cases heq
    exact hsigns.flagged

/-- The flag is set for a parameter before the last one, though the last type is no slice, and two
function types that differ in which parameter is variadic are one type. -/
theorem variadic_misplaced :
    let o := (checkGo (.ofText ("package p\n\ntype F func(a ...int, b string)\n\n" ++
      "type G func(a ...int, b []int)\n\ntype H func(a []int, b ...int)\n"))).under
        fun q => .error (.packageNotFound q)
    let shared := GoType.func ⟨[.slice (.basic .int), .slice (.basic .int)], [], true⟩
    o.errors.map TypeError.text = [] ∧
      o.package.types.map (fun d => d.name.name) = ["F", "G", "H"] ∧
      (o.package.types.map TypeDef.underlying ==
        [.func ⟨[.slice (.basic .int), .basic .string], [], true⟩, shared, shared]) = true := by
  decide +kernel

end GoAtlas
