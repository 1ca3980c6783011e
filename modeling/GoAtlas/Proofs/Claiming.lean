import GoAtlas.Proofs.Provenance

/-!
# Which files are claimed

A file belongs to a package if its directory lies below the system root or below the workspace.
The name of vendor directories is looked for among all components of the directory, wherever the
workspace is, so that files outside of it are claimed too, and nothing else is.
-/

namespace GoAtlas
namespace Path

/-!
# What components can be
-/

theorem mem_componentsOf {segments : List String} {c : Component} (h : c ∈ componentsOf segments) :
    c = .up ∨ exists name, c = .normal name ∧ name ∈ segments ∧ name ≠ "" ∧ name ≠ "." ∧
      name ≠ ".." := by
  unfold componentsOf at h
  rcases List.mem_filterMap.mp h with ⟨segment, hsegment, hc⟩
  split at hc
  · cases hc
  · next hidle =>
      split at hc
      · cases hc
        exact Or.inl rfl
      · next hup =>
          cases hc
          rw [isIdle, Bool.or_eq_true, beq_iff_eq, beq_iff_eq, not_or] at hidle
          exact Or.inr ⟨segment, rfl, hsegment, hidle.1, hidle.2, by simpa using hup⟩

theorem mem_componentsOf_of_mem_tail {p : Path} {c : Component} (h : c ∈ p.components.tail) :
    c ∈ componentsOf p.segments.tail := by
  rcases hsegments : p.segments with _ | ⟨first, others⟩
  · exact absurd hsegments p.segments_ne_nil
  · have hlength := length_leading_le first others
    rw [components_eq hsegments] at h
    rcases hleading : leading first others with _ | ⟨c, _ | ⟨d, more⟩⟩
    · rw [hleading] at h
      exact List.mem_of_mem_tail h
    · rw [hleading] at h
      exact h
    · rw [hleading] at hlength
      simp at hlength

theorem up_or_normal_of_components {p : Path} {front rest : List Component} {c d : Component}
    (h : p.components = front ++ c :: rest) (hd : d ∈ rest) :
    d = .up ∨ exists name, d = .normal name := by
  have htail : d ∈ p.components.tail := by
    rw [h]
    cases front with
    | nil => exact hd
    | cons first front => exact List.mem_append_right _ (List.mem_cons_of_mem _ hd)
  rcases mem_componentsOf (mem_componentsOf_of_mem_tail htail) with hup | ⟨name, hname, _⟩
  · exact Or.inl hup
  · exact Or.inr ⟨name, hname⟩

theorem mem_componentsOf_of_normal {p : Path} {name : String} (h : .normal name ∈ p.components) :
    .normal name ∈ componentsOf p.segments := by
  rcases hsegments : p.segments with _ | ⟨first, others⟩
  · exact absurd hsegments p.segments_ne_nil
  · rw [components_eq hsegments] at h
    rw [← List.singleton_append, componentsOf_append]
    rcases List.mem_append.mp h with hfirst | hothers
    · refine List.mem_append_left _ ?_
      unfold leading at hfirst
      split at hfirst
      · split at hfirst
        · cases hfirst
        · cases List.mem_singleton.mp hfirst
      · split at hfirst
        · cases List.mem_singleton.mp hfirst
        · exact hfirst
    · exact List.mem_append_right _ hothers

theorem exists_components_eq {p : Path} {front : List Component} (h : front <+: p.components) :
    exists q : Path, q.components = front := by
  generalize hlength : p.components.length = n
  induction n using Nat.strongRecOn generalizing p with
  | _ n ih =>
      by_cases hwhole : front = p.components
      · exact ⟨p, hwhole.symm⟩
      · cases hparent : p.parent? with
        | some parent =>
            rcases components_of_parent? hparent with ⟨c, hc⟩
            have hfront : front <+: parent.components := by
              rcases List.prefix_concat_iff.mp (hc ▸ h) with heq | hprefix
              · exact absurd (heq.trans hc.symm) hwhole
              · exact hprefix
            refine ih _ ?_ hfront rfl
            rw [← hlength, hc, List.length_append, List.length_singleton]
            exact Nat.lt_succ_self _
        | none =>
            refine ⟨⟨""⟩, ?_⟩
            rcases components_of_parent?_eq_none hparent with hempty | hroot
            · rw [hempty] at h
              rw [List.prefix_nil.mp h]
              rfl
            · rw [hroot] at h hwhole
              rcases List.prefix_cons_iff.mp h with hnil | ⟨rest, hrest, hprefix⟩
              · rw [hnil]
                rfl
              · rw [List.prefix_nil.mp hprefix] at hrest
                exact absurd hrest hwhole

end Path

namespace Provenance

theorem isBaseName_of_mem_components {p : Path} {name : String}
    (h : .normal name ∈ p.components) : IsBaseName name := by
  rcases Path.mem_componentsOf (Path.mem_componentsOf_of_normal h) with hup | ⟨_, heq, hname, hne⟩
  · cases hup
  · cases heq
    exact ⟨Path.isSegment_of_mem_segments hname, hne⟩

/-!
# What is looked for
-/

theorem notMem_of_afterLast? {name : String} {cs : List Component} (h : afterLast? name cs = none) :
    .normal name ∉ cs := by
  induction cs with
  | nil => exact List.not_mem_nil
  | cons c cs ih =>
      unfold afterLast? at h
      split at h
      · cases h
      · next hnone =>
          split at h
          · cases h
          · next hc =>
              rw [List.mem_cons, not_or]
              exact ⟨fun heq => hc (by rw [heq, beq_self_eq_true]), ih hnone⟩

theorem afterLast?_eq_some_iff {name : String} {cs rest : List Component} :
    afterLast? name cs = some rest ↔
      exists front, cs = front ++ .normal name :: rest ∧ .normal name ∉ rest := by
  constructor
  · intro h
    induction cs with
    | nil => cases h
    | cons c cs ih =>
        unfold afterLast? at h
        split at h
        · next found hfound =>
            cases h
            obtain ⟨front, hcs, hlast⟩ := ih hfound
            exact ⟨c :: front, congrArg (c :: ·) hcs, hlast⟩
        · next hnone =>
            split at h
            · next hc =>
                cases h
                exact ⟨[], congrArg (· :: rest) (beq_iff_eq.mp hc), notMem_of_afterLast? hnone⟩
            · cases h
  · rintro ⟨front, rfl, hlast⟩
    exact afterLast?_append hlast

theorem slashed_eq_some_iff {names : List String} {path : String} :
    slashed names = some path ↔ names ≠ [] ∧ String.intercalate "/" names = path := by
  unfold slashed
  cases names with
  | nil => simp
  | cons name rest => simp

def namesOf (cs : List Component) : List String :=
  cs.filterMap fun
    | .normal name => some name
    | _ => none

theorem mem_namesOf_iff {cs : List Component} {name : String} :
    name ∈ namesOf cs ↔ .normal name ∈ cs := by
  unfold namesOf
  rw [List.mem_filterMap]
  constructor
  · rintro ⟨c, hc, hname⟩
    split at hname
    · cases hname
      exact hc
    · cases hname
  · intro h
    exact ⟨.normal name, h, rfl⟩

theorem map_namesOf {cs : List Component} (h : forall c, c ∈ cs -> exists name, c = .normal name) :
    (namesOf cs).map Component.normal = cs := by
  induction cs with
  | nil => rfl
  | cons c cs ih =>
      obtain ⟨name, rfl⟩ := h c List.mem_cons_self
      exact congrArg (_ :: ·) (ih fun d hd => h d (List.mem_cons_of_mem _ hd))

theorem vendoredImport?_eq_some_iff {roots : SearchRoots} {dir : Path} {path : String} :
    vendoredImport? roots dir = some path ↔
      exists front rest, dir.components = front ++ .normal roots.vendorDir :: rest ∧
        .normal roots.vendorDir ∉ rest ∧ namesOf rest ≠ [] ∧
          String.intercalate "/" (namesOf rest) = path := by
  unfold vendoredImport?
  rw [Option.bind_eq_some_iff]
  constructor
  · rintro ⟨rest, hafter, hpath⟩
    obtain ⟨front, hdir, hlast⟩ := afterLast?_eq_some_iff.mp hafter
    exact ⟨front, rest, hdir, hlast, slashed_eq_some_iff.mp hpath⟩
  · rintro ⟨front, rest, hdir, hlast, hpath⟩
    exact ⟨rest, afterLast?_eq_some_iff.mpr ⟨front, hdir, hlast⟩, slashed_eq_some_iff.mpr hpath⟩

theorem liesBelow_iff {dir root : Path} :
    dir.LiesBelow root ↔ exists path, importBelow? dir root = some path := by
  unfold importBelow? Path.below?
  simp only [Option.bind_eq_some_iff, after?_eq_some_iff, slashed_eq_some_iff]
  constructor
  · rintro ⟨c, rest, hdir⟩
    exact ⟨_, c :: rest, hdir, List.cons_ne_nil _ _, rfl⟩
  · rintro ⟨_, rest, hdir, hne, _⟩
    rcases rest with _ | ⟨c, rest⟩
    · exact absurd rfl hne
    · exact ⟨c, rest, hdir⟩

def BelowRoot (root : Option Path) (dir : Path) : Prop :=
  exists base, root = some base ∧ dir.LiesBelow base

theorem belowRoot_iff {root : Option Path} {dir : Path} :
    BelowRoot root dir ↔ exists path, root.bind (importBelow? dir) = some path := by
  unfold BelowRoot
  cases root with
  | none => simp
  | some base =>
      rw [Option.bind_some, ← liesBelow_iff]
      simp

/-!
# What may be claimed
-/

section Claiming

variable (roots : SearchRoots) (workspace file : Path)

/-- A vendor directory of the workspace, or of a directory below it, has the directory under that
path. -/
def VendoredWithin (dir : Path) (path : String) : Prop :=
  exists level : Path,
    (level.components = workspace.components ∨ level.LiesBelow workspace) ∧
      dir.components = (vendorPlace roots path level).components

/-- Only files inside the search roots are claimed, and as vendored only those of a vendor
directory inside the workspace.  Every other file is in no package. -/
def ClaimsWithin : Except Error (PackageKind × String) -> Prop
  | .ok (kind, path) => exists dir, file.parent? = some dir ∧
      (BelowRoot roots.system dir ∨ dir.LiesBelow workspace) ∧
        (kind = .vendored -> VendoredWithin roots workspace dir path)
  | .error e => exists text, e = .packageNotFound text

/-- The last component with the name of vendor directories is not inside the workspace, or it is
left again behind it. -/
def Strays (path : String) : Prop :=
  exists dir front rest, file.parent? = some dir ∧ ¬ BelowRoot roots.system dir ∧
    dir.components = front ++ .normal roots.vendorDir :: rest ∧ .normal roots.vendorDir ∉ rest ∧
      namesOf rest ≠ [] ∧ String.intercalate "/" (namesOf rest) = path ∧
        (¬ workspace.components <+: front ∨ .up ∈ rest)

end Claiming

variable {roots : SearchRoots} {workspace file : Path}

theorem Strays.filePackage {path : String} (h : Strays roots workspace file path) :
    filePackage roots file = .ok (.vendored, path) := by
  obtain ⟨dir, front, rest, hparent, hsystem, hdir, hlast, hne, hpath, _⟩ := h
  have hnone : roots.system.bind (importBelow? dir) = none := by
    rw [Option.eq_none_iff_forall_ne_some]
    intro below hbelow
    exact hsystem (belowRoot_iff.mpr ⟨below, hbelow⟩)
  have hvendored : vendoredImport? roots dir = some path :=
    vendoredImport?_eq_some_iff.mpr ⟨front, rest, hdir, hlast, hne, hpath⟩
  unfold Provenance.filePackage
  rw [hparent]
  dsimp only
  rw [hnone, hvendored]

theorem components_vendorPlace_of_names {dir : Path} {front rest : List Component}
    (hdir : dir.components = front ++ .normal roots.vendorDir :: rest) (hne : namesOf rest ≠ [])
    (level : Path) :
    (vendorPlace roots (String.intercalate "/" (namesOf rest)) level).components =
      level.components ++ .normal roots.vendorDir :: (namesOf rest).map Component.normal := by
  have hbase : forall name, .normal name ∈ .normal roots.vendorDir :: rest -> IsBaseName name := by
    intro name hname
    apply isBaseName_of_mem_components (p := dir)
    rw [hdir]
    exact List.mem_append_right _ hname
  have hnames : forall name, name ∈ namesOf rest -> IsBaseName name := by
    intro name hname
    exact hbase name (List.mem_cons_of_mem _ (mem_namesOf_iff.mp hname))
  have hpieces : Text.pieceStrings '/' (String.intercalate "/" (namesOf rest)) = namesOf rest :=
    Path.segments_intercalate hne fun name hname => (hnames name hname).1
  have hnamed : Path.IsNamed (String.intercalate "/" (namesOf rest)) := by
    intro name hname
    rw [hpieces] at hname
    exact (hnames name hname).2
  rw [components_vendorPlace (hbase _ List.mem_cons_self) hnamed, hpieces]

theorem eq_of_last {name : String} {front front' rest rest' : List Component}
    (h : front ++ .normal name :: rest = front' ++ .normal name :: rest')
    (hlast : .normal name ∉ rest) (hlast' : .normal name ∉ rest') :
    front = front' ∧ rest = rest' := by
  have hrest := congrArg (afterLast? name) h
  rw [afterLast?_append hlast, afterLast?_append hlast'] at hrest
  cases hrest
  exact ⟨List.append_cancel_right h, rfl⟩

/-- Where the vendor name leads astray, no vendor directory of the workspace has the directory. -/
theorem Strays.not_claimsWithin {path : String} (h : Strays roots workspace file path) :
    ¬ ClaimsWithin roots workspace file (Provenance.filePackage roots file) := by
  rw [h.filePackage]
  obtain ⟨dir, front, rest, hparent, _, hdir, hlast, hne, rfl, hstray⟩ := h
  rintro ⟨parent, hparent', _, hvendored⟩
  cases hparent.symm.trans hparent'
  obtain ⟨level, hlevel, hplace⟩ := hvendored rfl
  rw [components_vendorPlace_of_names hdir hne, hdir] at hplace
  have hlast' : .normal roots.vendorDir ∉ (namesOf rest).map Component.normal := by
    rw [normal_mem_names_iff, mem_namesOf_iff]
    exact hlast
  obtain ⟨hfront, hrest⟩ := eq_of_last hplace hlast hlast'
  rcases hstray with houtside | hup
  · apply houtside
    rw [hfront]
    rcases hlevel with hsame | ⟨c, below, hbelow⟩
    · exact hsame ▸ List.prefix_refl _
    · rw [hbelow]
      exact List.prefix_append _ _
  · rw [hrest] at hup
    obtain ⟨name, _, hname⟩ := List.mem_map.mp hup
    cases hname

/-- A directory with the vendor name that does not lead astray is in a vendor directory of the
workspace. -/
theorem vendoredWithin_of_components {dir : Path} {front rest : List Component}
    (hdir : dir.components = front ++ .normal roots.vendorDir :: rest) (hne : namesOf rest ≠ [])
    (hfront : workspace.components <+: front) (hup : .up ∉ rest) :
    VendoredWithin roots workspace dir (String.intercalate "/" (namesOf rest)) := by
  have hrest : (namesOf rest).map Component.normal = rest := by
    apply map_namesOf
    intro c hc
    rcases Path.up_or_normal_of_components hdir hc with rfl | hname
    · exact absurd hc hup
    · exact hname
  obtain ⟨level, hlevel⟩ : exists level : Path, level.components = front :=
    Path.exists_components_eq (hdir ▸ List.prefix_append _ _)
  refine ⟨level, ?_, ?_⟩
  · obtain ⟨more, hmore⟩ := hfront
    cases more with
    | nil => exact Or.inl (by rw [hlevel, ← hmore, List.append_nil])
    | cons c more => exact Or.inr ⟨c, more, by rw [hlevel, hmore]⟩
  · rw [components_vendorPlace_of_names hdir hne, hlevel, hrest, hdir]

theorem claimsWithin_of_not_strays (hworkspace : roots.workspace = some workspace)
    (h : forall path, ¬ Strays roots workspace file path) :
    ClaimsWithin roots workspace file (Provenance.filePackage roots file) := by
  unfold Provenance.filePackage
  cases hparent : file.parent? with
  | none => exact ⟨_, rfl⟩
  | some dir =>
      dsimp only
      cases hsystem : roots.system.bind (importBelow? dir) with
      | some path =>
          refine ⟨dir, hparent, Or.inl (belowRoot_iff.mpr ⟨path, hsystem⟩), fun hkind => ?_⟩
          cases hkind
      | none =>
          cases hvendored : vendoredImport? roots dir with
          | some path =>
              obtain ⟨front, rest, hdir, hlast, hne, rfl⟩ :=
                vendoredImport?_eq_some_iff.mp hvendored
              have hbelow : ¬ BelowRoot roots.system dir := by
                rw [belowRoot_iff, hsystem]
                rintro ⟨_, hsome⟩
                cases hsome
              have hkept : ¬ (¬ workspace.components <+: front ∨ .up ∈ rest) := fun hstray =>
                h _ ⟨dir, front, rest, hparent, hbelow, hdir, hlast, hne, rfl, hstray⟩
              rw [not_or, not_not] at hkept
              have hwithin := vendoredWithin_of_components hdir hne hkept.1 hkept.2
              refine ⟨dir, hparent, Or.inr ?_, fun _ => hwithin⟩
              obtain ⟨more, hmore⟩ := hkept.1
              rw [Path.LiesBelow, hdir, ← hmore, List.append_assoc]
              cases more with
              | nil => exact ⟨_, _, rfl⟩
              | cons c more => exact ⟨c, _, rfl⟩
          | none =>
              cases huser : roots.workspace.bind (importBelow? dir) with
              | some path =>
                  refine ⟨dir, hparent, Or.inr ?_, fun hkind => by cases hkind⟩
                  rw [hworkspace] at huser
                  exact liesBelow_iff.mpr ⟨path, huser⟩
              | none => exact ⟨_, rfl⟩

/-- A file is claimed outside of the search roots, or for a path that no vendor directory of the
workspace has, exactly where the vendor name leads astray. -/
theorem filePackage_claimsWithin_iff (file : Path) (hworkspace : roots.workspace = some workspace) :
    (ClaimsWithin roots workspace file (Provenance.filePackage roots file) ↔
        ¬ exists path, Strays roots workspace file path) ∧
      forall path, Strays roots workspace file path ->
        Provenance.filePackage roots file = .ok (.vendored, path) := by
  refine ⟨⟨?_, ?_⟩, fun path hstrays => hstrays.filePackage⟩
  · rintro hclaims ⟨path, hstrays⟩
    exact hstrays.not_claimsWithin hclaims
  · intro hnone
    exact claimsWithin_of_not_strays hworkspace fun path hstrays => hnone ⟨path, hstrays⟩

def nestedRoots : SearchRoots := ⟨some ⟨"/vendor/src"⟩, none, "vendor"⟩

theorem filePackage_claimsWithin_iff_nested :
    Provenance.filePackage nestedRoots ⟨"/vendor/src/app/a.go"⟩ = .ok (.vendored, "src/app") ∧
      ¬ ClaimsWithin nestedRoots ⟨"/vendor/src"⟩ ⟨"/vendor/src/app/a.go"⟩
        (Provenance.filePackage nestedRoots ⟨"/vendor/src/app/a.go"⟩) := by
  have h := filePackage_claimsWithin_iff ⟨"/vendor/src/app/a.go"⟩
    (rfl : nestedRoots.workspace = some ⟨"/vendor/src"⟩)
  have hstrays : Strays nestedRoots ⟨"/vendor/src"⟩ ⟨"/vendor/src/app/a.go"⟩ "src/app" := by
    refine ⟨⟨"/vendor/src/app"⟩, [.root], [.normal "src", .normal "app"], by rfl, ?_, by decide,
      by decide, by decide, by decide, Or.inl (by decide)⟩
    rintro ⟨_, hroot, _⟩
    cases hroot
  exact ⟨h.2 _ hstrays, fun hclaims => h.1.mp hclaims ⟨_, hstrays⟩⟩

def plainRoots : SearchRoots := ⟨some ⟨"/go/src"⟩, none, "vendor"⟩

/-- A file next to the workspace is claimed for the vendor name in its directory. -/
theorem outside_claimed :
    plainRoots.workspace = some ⟨"/go/src"⟩ ∧
      Provenance.filePackage plainRoots ⟨"/elsewhere/vendor/x/a.go"⟩ = .ok (.vendored, "x") ∧
      ¬ ClaimsWithin plainRoots ⟨"/go/src"⟩ ⟨"/elsewhere/vendor/x/a.go"⟩
        (Provenance.filePackage plainRoots ⟨"/elsewhere/vendor/x/a.go"⟩) := by
  have hstrays : Strays plainRoots ⟨"/go/src"⟩ ⟨"/elsewhere/vendor/x/a.go"⟩ "x" := by
    refine ⟨⟨"/elsewhere/vendor/x"⟩, [.root, .normal "elsewhere"], [.normal "x"], by rfl, ?_,
      by decide, by decide, by decide, by decide, Or.inl (by decide)⟩
    rintro ⟨_, hroot, _⟩
    cases hroot
  exact ⟨rfl, hstrays.filePackage, hstrays.not_claimsWithin⟩

end Provenance
end GoAtlas
