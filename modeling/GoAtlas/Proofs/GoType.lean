import GoAtlas.Definition

/-!
# The leaves of a type

Basic kinds and names are the leaves of a type: every type is built from them.  `Within` says
of a type that its leaves are allowed, given when the invalid kind is and which declared names
are.
-/

namespace GoAtlas
namespace GoType

mutual

/-- The basic kinds and the names that occur anywhere in a type. -/
def leaves : GoType -> List GoType
  | basic kind => [basic kind]
  | named name => [named name]
  | struct fields => fieldLeaves fields
  | slice elem => leaves elem
  | array _ elem => leaves elem
  | pointer elem => leaves elem
  | map key value => leaves key ++ leaves value
  | interface methods embedded => methodLeaves methods ++ listLeaves embedded
  | func ⟨params, results, _⟩ => listLeaves params ++ listLeaves results
  | chan _ elem => leaves elem

def listLeaves : List GoType -> List GoType
  | [] => []
  | type :: rest => leaves type ++ listLeaves rest

def fieldLeaves : List (Field GoType) -> List GoType
  | [] => []
  | ⟨_, type, _, _, _⟩ :: rest => leaves type ++ fieldLeaves rest

def methodLeaves : List (InterfaceMethod GoType) -> List GoType
  | [] => []
  | ⟨_, ⟨params, results, _⟩⟩ :: rest =>
      listLeaves params ++ listLeaves results ++ methodLeaves rest

end

end GoType

namespace Signature

def leaves (s : Signature GoType) : List GoType :=
  GoType.listLeaves s.params ++ GoType.listLeaves s.results

end Signature

namespace TypeDef

/-- The leaves of the structure and of all method signatures. -/
def leaves (d : TypeDef) : List GoType :=
  d.underlying.leaves ++ d.methods.flatMap fun m => m.signature.leaves

end TypeDef

namespace GoType

attribute [local simp] listLeaves fieldLeaves methodLeaves

theorem mem_listLeaves {leaf : GoType} {types : List GoType} :
    leaf ∈ listLeaves types ↔ exists type, type ∈ types ∧ leaf ∈ type.leaves := by
  induction types with
  | nil => simp
  | cons type rest ih => simp [ih]

theorem mem_fieldLeaves {leaf : GoType} {fields : List (Field GoType)} :
    leaf ∈ fieldLeaves fields ↔ exists f, f ∈ fields ∧ leaf ∈ f.type.leaves := by
  induction fields with
  | nil => simp
  | cons f rest ih => simp [ih]

theorem mem_methodLeaves {leaf : GoType} {methods : List (InterfaceMethod GoType)} :
    leaf ∈ methodLeaves methods ↔ exists m, m ∈ methods ∧ leaf ∈ m.signature.leaves := by
  induction methods with
  | nil => simp
  | cons m rest ih => simp [Signature.leaves, ih, or_assoc]

/-!
# Allowed leaves
-/

/-- Whether a leaf is allowed, if `invalid` says when the invalid kind is and `known` which
declared names are. -/
def Allowed (invalid : Prop) (known : String -> String -> Prop) : GoType -> Prop
  | basic .invalid => invalid
  | named (.declared package name) => known package name
  | _ => True

def Within (invalid : Prop) (known : String -> String -> Prop) (type : GoType) : Prop :=
  forall leaf, leaf ∈ type.leaves -> leaf.Allowed invalid known

end GoType

namespace Signature

def Within (invalid : Prop) (known : String -> String -> Prop) (s : Signature GoType) : Prop :=
  forall leaf, leaf ∈ s.leaves -> leaf.Allowed invalid known

end Signature

namespace TypeDef

def Within (invalid : Prop) (known : String -> String -> Prop) (d : TypeDef) : Prop :=
  forall leaf, leaf ∈ d.leaves -> leaf.Allowed invalid known

end TypeDef

namespace GoType

variable {invalid invalid' : Prop} {known known' : String -> String -> Prop}

attribute [local simp] leaves

theorem Allowed.mono (hinvalid : invalid -> invalid')
    (hknown : forall package name, known package name -> known' package name) {leaf : GoType}
    (h : leaf.Allowed invalid known) : leaf.Allowed invalid' known' := by
  unfold Allowed at h ⊢
  split
  · exact hinvalid h
  · exact hknown _ _ h
  · trivial

theorem Within.mono (hinvalid : invalid -> invalid')
    (hknown : forall package name, known package name -> known' package name) {type : GoType}
    (h : type.Within invalid known) : type.Within invalid' known' :=
  fun leaf hleaf => (h leaf hleaf).mono hinvalid hknown

theorem within_all (type : GoType) : type.Within True fun _ _ => True := by
  intro leaf _
  unfold Allowed
  split
  · trivial
  · trivial
  · trivial

theorem Within.and {type : GoType} (h : type.Within invalid known)
    (h' : type.Within invalid' known') :
    type.Within (invalid ∧ invalid')
      fun package name => known package name ∧ known' package name := by
  intro leaf hleaf
  have hallowed := h leaf hleaf
  have hallowed' := h' leaf hleaf
  unfold Allowed at hallowed hallowed' ⊢
  split
  · exact ⟨hallowed, hallowed'⟩
  · exact ⟨hallowed, hallowed'⟩
  · trivial

theorem within_invalid_iff : GoType.invalid.Within invalid known ↔ invalid := by
  simp [Within, GoType.invalid, Allowed]

theorem within_basic {kind : BasicKind} (h : kind ≠ .invalid) :
    (basic kind).Within invalid known := by
  intro leaf hleaf
  rw [List.mem_singleton.mp hleaf]
  cases kind with
  | invalid => exact absurd rfl h
  | _ => trivial

theorem within_builtin (name : String) : (named (.builtin name)).Within invalid known := by
  intro leaf hleaf
  rw [List.mem_singleton.mp hleaf]
  trivial

theorem within_declared_iff {package name : String} :
    (named (.declared package name)).Within invalid known ↔ known package name := by
  simp [Within, Allowed]

theorem within_slice_iff {elem : GoType} :
    (slice elem).Within invalid known ↔ elem.Within invalid known := by
  simp [Within]

theorem within_array_iff {len : Nat} {elem : GoType} :
    (array len elem).Within invalid known ↔ elem.Within invalid known := by
  simp [Within]

theorem within_pointer_iff {elem : GoType} :
    (pointer elem).Within invalid known ↔ elem.Within invalid known := by
  simp [Within]

theorem within_chan_iff {dir : Direction} {elem : GoType} :
    (chan dir elem).Within invalid known ↔ elem.Within invalid known := by
  simp [Within]

theorem within_map_iff {key value : GoType} :
    (map key value).Within invalid known ↔
      key.Within invalid known ∧ value.Within invalid known := by
  simp [Within, or_imp, forall_and]

theorem within_struct_iff {fields : List (Field GoType)} :
    (struct fields).Within invalid known ↔
      forall f, f ∈ fields -> f.type.Within invalid known := by
  simp only [Within, leaves, mem_fieldLeaves]
  constructor
  · intro h f hf leaf hleaf
    exact h leaf ⟨f, hf, hleaf⟩
  · rintro h leaf ⟨f, hf, hleaf⟩
    exact h f hf leaf hleaf

theorem within_func_iff {s : Signature GoType} :
    (func s).Within invalid known ↔ s.Within invalid known := Iff.rfl

theorem within_interface {methods : List (InterfaceMethod GoType)} {embedded : List GoType}
    (hmethods : forall m, m ∈ methods -> m.signature.Within invalid known)
    (hembedded : forall type, type ∈ embedded -> type.Within invalid known) :
    (interface methods embedded).Within invalid known := by
  intro leaf hleaf
  rcases List.mem_append.mp hleaf with hmethod | hembed
  · rcases mem_methodLeaves.mp hmethod with ⟨m, hm, hleaf⟩
    exact hmethods m hm leaf hleaf
  · rcases mem_listLeaves.mp hembed with ⟨type, htype, hleaf⟩
    exact hembedded type htype leaf hleaf

theorem within_emptyInterface : (interface [] []).Within invalid known :=
  within_interface (List.forall_mem_nil _) (List.forall_mem_nil _)

theorem within_signature {s : Signature GoType}
    (hparams : forall type, type ∈ s.params -> type.Within invalid known)
    (hresults : forall type, type ∈ s.results -> type.Within invalid known) :
    s.Within invalid known := by
  intro leaf hleaf
  rcases List.mem_append.mp hleaf with hparam | hresult
  · rcases mem_listLeaves.mp hparam with ⟨type, htype, hleaf⟩
    exact hparams type htype leaf hleaf
  · rcases mem_listLeaves.mp hresult with ⟨type, htype, hleaf⟩
    exact hresults type htype leaf hleaf

theorem within_errorInterface : errorInterface.Within invalid known := by
  refine within_interface ?_ (List.forall_mem_nil _)
  intro m hm
  rw [List.mem_singleton.mp hm]
  refine within_signature (List.forall_mem_nil _) ?_
  intro type htype
  rw [List.mem_singleton.mp htype]
  exact within_basic (by decide)

theorem within_def_iff {d : TypeDef} :
    d.Within invalid known ↔
      d.underlying.Within invalid known ∧
        forall m, m ∈ d.methods -> m.signature.Within invalid known := by
  simp only [TypeDef.Within, TypeDef.leaves, List.mem_append, List.mem_flatMap]
  constructor
  · intro h
    exact ⟨fun leaf hleaf => h leaf (Or.inl hleaf),
      fun m hm leaf hleaf => h leaf (Or.inr ⟨m, hm, hleaf⟩)⟩
  · rintro ⟨hunderlying, hmethods⟩ leaf (hleaf | ⟨m, hm, hleaf⟩)
    · exact hunderlying leaf hleaf
    · exact hmethods m hm leaf hleaf

end GoType
end GoAtlas
