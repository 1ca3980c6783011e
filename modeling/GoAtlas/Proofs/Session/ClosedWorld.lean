import GoAtlas.Proofs.Session.Soundness

/-!
# The closed world

In a sound session every name in the index leads to a definition of its own or into a system
package that is taken on trust.  If hard errors are not allowed and nothing is taken on trust,
no indexed type is invalid anywhere.
-/

namespace GoAtlas
namespace Session

def IsKnown (s : Session) (n : TypeName) : Prop :=
  (exists d, s.definition? n = some d ∧ d.isAlias = false ∧ d.name = n) ∨
    exists p, s.package? n.packagePath = some p ∧ p.isOpaque = true ∧ p.kind = .system

theorem Consistent.get?_of_source {s : Session} (h : s.Consistent) {path name : String}
    {p : Package} {d : TypeDef} (hp : s.cache.get? path = some (.resolved p))
    (hsource : p.kind.isSource = true) (hd : p.type? name = some d) :
    s.index.get? (.declared path name) = some d := by
  have hmem : d ∈ s.index.definitions :=
    h.mem_definitions_iff.mpr ⟨path, p, hp, hsource, Table.mem_values_iff.mpr ⟨name, hd⟩⟩
  rcases Table.mem_values_iff.mp hmem with ⟨full, hfull⟩
  have hname := h.types path p name d hp hsource hd
  have hkey := h.keys full d hfull
  rw [hname] at hkey
  show s.index.table.get? (TypeName.declared path name).full = some d
  rw [hkey]
  exact hfull

/-- No indexed type hides a type of a package that is not indexed. -/
theorem Consistent.get?_of_other {s : Session} (h : s.Consistent) {path name : String}
    {p : Package} (hp : s.cache.get? path = some (.resolved p))
    (hother : p.kind.isSource = false) (hpath : '.' ∉ path.toList)
    (hname : '.' ∉ name.toList) : s.index.get? (.declared path name) = none := by
  cases hd : s.index.get? (.declared path name) with
  | none => rfl
  | some d =>
      have hmem : d ∈ s.index.definitions := Table.mem_values_iff.mpr ⟨_, hd⟩
      have hfull : d.name.full = (TypeName.declared path name).full := h.keys _ d hd
      rcases h.mem_definitions_iff.mp hmem with ⟨package, q, hq, hsource, hvalue⟩
      rcases h.name_of_mem_values hq hsource hvalue with ⟨word, _, hword⟩
      rw [hword] at hfull
      -- The two full names have one dot, so both are cut at the same place.
      have hdot := TypeName.not_mem_of_full_eq hpath hname hfull.symm
      rcases TypeName.declared_eq_of_full_eq hdot hname hfull with ⟨rfl, _⟩
      cases Option.some.inj (hq.symm.trans hp)
      rw [hother] at hsource
      cases hsource

theorem isKnown_of_knows {s : Session} (hsound : s.Sound) (hconsistent : s.Consistent)
    {package name : String} (h : s.Knows package name) : s.IsKnown (.declared package name) := by
  rcases h with ⟨p, hp, hname⟩
  have hclosed := hsound.packages package p hp
  have hpackage : s.package? package = some p := package?_eq_some_iff.mpr hp
  rcases hname with htrusted | ⟨d, hd, halias⟩
  · exact Or.inr ⟨p, hpackage, htrusted, (hclosed.trusted htrusted).1⟩
  · refine Or.inl ⟨d, ?_, halias, hclosed.names name d hd⟩
    unfold definition?
    cases hsource : p.kind.isSource with
    | true => rw [hconsistent.get?_of_source hp hsource hd]
    | false =>
        -- The index says nothing of this package, and the lookup goes on to the package itself.
        rcases hclosed.plain hsource name d hd with ⟨hpath, hdot⟩
        rw [hconsistent.get?_of_other hp hsource hpath hdot]
        show (s.package? package).bind (fun p => p.type? name) = some d
        rw [hpackage]
        exact hd

theorem closed_of_indexed {s : Session} (hsound : s.Sound) (hconsistent : s.Consistent)
    {d : TypeDef} (hd : d ∈ s.index.definitions) :
    exists path p name, s.Closed path p ∧ p.type? name = some d := by
  rcases hconsistent.mem_definitions_iff.mp hd with ⟨path, p, hp, _, hvalue⟩
  rcases Table.mem_values_iff.mp hvalue with ⟨name, hname⟩
  exact ⟨path, p, name, hsound.packages path p hp, hname⟩

theorem isKnown_of_allowed {s : Session} (hsound : s.Sound) (hconsistent : s.Consistent)
    {n : TypeName} (h : (GoType.named n).Allowed s.Excused s.Knows)
    (hn : n.isBuiltin = false) : s.IsKnown n := by
  cases n with
  | builtin name => cases hn
  | declared package name => exact isKnown_of_knows hsound hconsistent h

/-- Names in definitions and constants lead somewhere, and structures are no names. -/
structure ClosedWorld (s : Session) : Prop where
  definitions : forall d n, d ∈ s.index.definitions -> .named n ∈ d.leaves ->
    n.isBuiltin = false -> s.IsKnown n
  constants : forall p c n, p ∈ s.packages -> c ∈ p.consts -> .named n ∈ c.type.leaves ->
    n.isBuiltin = false -> s.IsKnown n
  shapes : forall d n, d ∈ s.index.definitions -> d.isAlias = false -> d.underlying ≠ .named n

theorem closedWorld_after (tree : FileTree) (roots : SearchRoots) (options : Options)
    (ops : List Operation) : (after (goSetup tree roots options) ops).ClosedWorld := by
  have hsound := sound_after tree roots options ops
  have hconsistent := consistent_after (goSetup tree roots options) ops
  exact
    { definitions := by
        intro d n hd hleaf hn
        rcases closed_of_indexed hsound hconsistent hd with ⟨path, p, name, hclosed, htype⟩
        exact isKnown_of_allowed hsound hconsistent (hclosed.types name d htype _ hleaf) hn
      constants := by
        intro p c n hp hc hleaf hn
        rcases mem_packages_iff.mp hp with ⟨path, hpath⟩
        have hclosed := hsound.packages path p hpath
        exact isKnown_of_allowed hsound hconsistent (hclosed.consts c hc _ hleaf) hn
      shapes := by
        intro d n hd halias heq
        rcases closed_of_indexed hsound hconsistent hd with ⟨path, p, name, hclosed, htype⟩
        have hshape := hclosed.shapes name d htype halias
        rw [heq] at hshape
        cases hshape }

/-!
# Strict sessions
-/

/-- If hard errors are not allowed and no package was taken on trust, nothing is invalid. -/
theorem valid_after (tree : FileTree) (roots : SearchRoots) (includeTests : Bool)
    (ops : List Operation)
    (htrusted : forall p, p ∈ (after (goSetup tree roots ⟨includeTests, false⟩) ops).packages ->
      p.isOpaque = false) :
    (forall d, d ∈ (after (goSetup tree roots ⟨includeTests, false⟩) ops).index.definitions ->
      .invalid ∉ d.leaves) ∧
    forall p c, p ∈ (after (goSetup tree roots ⟨includeTests, false⟩) ops).packages ->
      c ∈ p.consts -> .invalid ∉ c.type.leaves := by
  have hsound := sound_after tree roots ⟨includeTests, false⟩ ops
  have hconsistent := consistent_after (goSetup tree roots ⟨includeTests, false⟩) ops
  have hexcused : ¬ (after (goSetup tree roots ⟨includeTests, false⟩) ops).Excused := by
    rintro (hoptions | ⟨path, p, hp, htrue⟩)
    · rw [setup_after] at hoptions
      cases hoptions
    · rw [htrusted p (mem_packages_iff.mpr ⟨path, hp⟩)] at htrue
      cases htrue
  constructor
  · intro d hd hleaf
    rcases closed_of_indexed hsound hconsistent hd with ⟨path, p, name, hclosed, htype⟩
    exact hexcused (hclosed.types name d htype _ hleaf)
  · intro p c hp hc hleaf
    rcases mem_packages_iff.mp hp with ⟨path, hpath⟩
    exact hexcused ((hsound.packages path p hpath).consts c hc _ hleaf)

def pairTree : FileTree :=
  let outer := "package a\n\nimport \"b\"\n\ntype T struct\x7b N b.N \x7d\n\nconst C b.N = 1 << 2\n"
  let inner := "package b\n\ntype N = M\n\ntype M int\n"
  ⟨[(["w", "a", "a.go"], Text.encode outer), (["w", "b", "b.go"], Text.encode inner)], [], []⟩

def pairRoots : SearchRoots := ⟨some ⟨"/w"⟩, none, "vendor"⟩

/-- Both packages are resolved from their sources. -/
theorem valid_after_pair :
    ((after (goSetup pairTree pairRoots ⟨false, false⟩) [.resolve "a"]).packages.map
      fun p => (p.path, p.isOpaque)) = [("a", false), ("b", false)] ∧
    (forall d, d ∈ (after (goSetup pairTree pairRoots ⟨false, false⟩)
      [.resolve "a"]).index.definitions -> .invalid ∉ d.leaves) ∧
    forall p c, p ∈ (after (goSetup pairTree pairRoots ⟨false, false⟩)
      [.resolve "a"]).packages -> c ∈ p.consts -> .invalid ∉ c.type.leaves := by
  have hpackages : ((after (goSetup pairTree pairRoots ⟨false, false⟩) [.resolve "a"]).packages.map
      fun p => (p.path, p.isOpaque)) = [("a", false), ("b", false)] := by
    decide +kernel
  refine ⟨hpackages, valid_after pairTree pairRoots false [.resolve "a"] ?_⟩
  intro p hp
  have hmem := List.mem_map_of_mem (f := fun p : Package => (p.path, p.isOpaque)) hp
  rw [hpackages] at hmem
  simp only [List.mem_cons, Prod.mk.injEq, List.not_mem_nil, or_false] at hmem
  rcases hmem with ⟨_, htrusted⟩ | ⟨_, htrusted⟩
  · exact htrusted
  · exact htrusted

end Session
end GoAtlas
