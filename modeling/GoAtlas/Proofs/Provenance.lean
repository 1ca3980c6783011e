import GoAtlas.Proofs.Ancestors
import GoAtlas.Proofs.FileTree

/-!
# What a search finds

A search for an import path ends in the first directory that exists: in the vendor directory that
is nearest to the importing directory, then below the system root, then in the workspace.  What is
found lies below the root it belongs to, and an import path leads downwards only.  From a file of a
directory that was found, the kind and the import path are found again.
-/

namespace GoAtlas
namespace Path

def NamedBelow (p base : Path) : Prop :=
  exists name rest, p.components = base.components ++ (name :: rest).map Component.normal

theorem NamedBelow.liesBelow {p base : Path} (h : p.NamedBelow base) : p.LiesBelow base := by
  rcases h with ⟨name, rest, hp⟩
  exact ⟨.normal name, rest.map Component.normal, hp⟩

theorem namedBelow_join (base : Path) {text : String} (h : IsNamed text) :
    (base.join text).NamedBelow base := by
  rcases hpieces : Text.pieceStrings '/' text with _ | ⟨name, rest⟩
  · exact absurd hpieces (Text.pieceStrings_ne_nil '/' text)
  · exact ⟨name, rest, hpieces ▸ components_join_names base h⟩

theorem NamedBelow.trans {p q r : Path} (hpq : p.NamedBelow q) (hqr : q.NamedBelow r) :
    p.NamedBelow r := by
  rcases hpq with ⟨name, rest, hp⟩
  rcases hqr with ⟨other, more, hq⟩
  refine ⟨other, more ++ name :: rest, ?_⟩
  rw [hp, hq, List.append_assoc, ← List.map_append, List.cons_append]

theorem startsWith_iff {p base : Path} :
    p.startsWith base = true ↔ exists rest, p.components = base.components ++ rest := by
  unfold startsWith
  rw [List.isPrefixOf_iff_prefix]
  constructor
  · rintro ⟨rest, h⟩
    exact ⟨rest, h.symm⟩
  · rintro ⟨rest, h⟩
    exact ⟨rest, h.symm⟩

theorem beginsWithName_of_components {text name : String}
    (h : (Path.mk text).components = [.normal name]) : BeginsWithName text := by
  intro first rest hsegments
  rw [components_eq hsegments] at h
  by_cases hempty : first = ""
  · rw [hempty] at h
    cases rest with
    | nil => cases h
    | cons second more => cases h
  · by_cases hdot : first = "."
    · rw [hdot] at h
      cases h
    · simp [isIdle, hempty, hdot]

/-- Going up from a path to which names lead, and not as far as the base, these names lead there
too. -/
theorem NamedBelow.of_climbs {p level base : Path} (hp : p.NamedBelow base)
    (hclimbs : Climbs p level) (hlevel : level.LiesBelow base) : level.NamedBelow base := by
  rcases hclimbs.eq_or_liesBelow with heq | ⟨d, more, hmore⟩
  · exact heq ▸ hp
  · rcases hp with ⟨name, rest, hp⟩
    rcases hlevel with ⟨c, others, hlevel⟩
    rw [hp, hlevel, List.append_assoc, List.append_cancel_left_eq] at hmore
    rcases List.map_eq_append_iff.mp hmore with ⟨names, _, _, hnames, _⟩
    cases names with
    | nil => cases hnames
    | cons first names => exact ⟨first, names, hnames ▸ hlevel⟩

end Path

namespace Provenance

/-!
# Import paths
-/

/-- Text that is no import path: blank, absolute, with a backslash, or with a segment that is no
name. -/
def Refused (path : String) : Prop :=
  (forall c, c ∈ path.toList -> Text.isBlank c = true) ∨ path.toList.head? = some '/' ∨
    '\\' ∈ path.toList ∨
      exists segment, segment ∈ Text.pieceStrings '/' path ∧
        (segment = "" ∨ segment = "." ∨ segment = "..")

theorem startsWith_slash_iff (path : String) :
    Text.startsWith path "/" = true ↔ path.toList.head? = some '/' := by
  unfold Text.startsWith
  rw [show "/".toList = ['/'] from rfl]
  cases path.toList with
  | nil => simp
  | cons c rest =>
      simp only [List.isPrefixOf, Bool.and_true, beq_iff_eq, List.head?_cons, Option.some.injEq]
      exact eq_comm

theorem isValid_eq_false_iff {path : String} : isValid path = false ↔ Refused path := by
  have hblank : Text.isBlankText path = true ↔
      forall c, c ∈ path.toList -> Text.isBlank c = true := List.all_eq_true
  have hslash := startsWith_slash_iff path
  unfold isValid Refused
  rw [← hblank, ← hslash]
  simp only [Bool.and_eq_false_iff, Bool.not_eq_false', List.contains_iff_mem,
    List.all_eq_false, Bool.and_eq_true, bne_iff_ne, not_and, ne_eq]
  constructor
  · rintro (((h | h) | h) | ⟨segment, hmem, hsegment⟩)
    · exact Or.inl h
    · exact Or.inr (Or.inl h)
    · exact Or.inr (Or.inr (Or.inl h))
    · refine Or.inr (Or.inr (Or.inr ⟨segment, hmem, ?_⟩))
      by_cases hempty : segment = ""
      · exact Or.inl hempty
      · by_cases hdot : segment = "."
        · exact Or.inr (Or.inl hdot)
        · exact Or.inr (Or.inr (by simpa [hempty, hdot] using hsegment))
  · rintro (h | h | h | ⟨segment, hmem, hsegment⟩)
    · exact Or.inl (Or.inl (Or.inl h))
    · exact Or.inl (Or.inl (Or.inr h))
    · exact Or.inl (Or.inr h)
    · refine Or.inr ⟨segment, hmem, ?_⟩
      rcases hsegment with rfl | rfl | rfl
      · simp
      · simp
      · simp

theorem isNamed_of_not_refused {path : String} (h : ¬ Refused path) : Path.IsNamed path := by
  apply isNamed_of_isValid
  by_contra hinvalid
  exact h (isValid_eq_false_iff.mp (Bool.eq_false_iff.mpr hinvalid))

/-!
# Levels
-/

/-- A directory that may hold vendored packages: the origin, or one above it.  With a workspace
it lies below the workspace. -/
structure IsLevel (roots : SearchRoots) (origin : Option Path) (level : Path) : Prop where
  above : exists start, origin = some start ∧ Path.Climbs start level
  below : forall workspace, roots.workspace = some workspace -> level.LiesBelow workspace

theorem mayVendor_iff {roots : SearchRoots} {dir : Path} :
    mayVendor roots dir = true ↔
      forall workspace, roots.workspace = some workspace -> dir.LiesBelow workspace := by
  unfold mayVendor
  cases roots.workspace with
  | none => simp
  | some workspace =>
      have hsame : (dir == workspace) = true ↔ dir.components = workspace.components := by
        show (dir.components == workspace.components) = true ↔ _
        exact beq_iff_eq
      dsimp only
      rw [Bool.and_eq_true, Bool.not_eq_true', Bool.eq_false_iff, ne_eq, hsame,
        Path.startsWith_iff]
      constructor
      · rintro ⟨hne, rest, hrest⟩ _ hworkspace
        cases hworkspace
        cases rest with
        | nil => exact absurd (hrest.trans (List.append_nil _)) hne
        | cons c rest => exact ⟨c, rest, hrest⟩
      · intro h
        rcases h workspace rfl with ⟨c, rest, hrest⟩
        refine ⟨fun heq => ?_, _, hrest⟩
        exact Path.LiesBelow.irrefl workspace ⟨c, rest, heq ▸ hrest⟩

/-- What holds of a later element of a list holds of the earlier ones, so it holds of a first part
of the list. -/
theorem mem_takeWhile_iff {α : Type} {R : α -> α -> Prop} {keep : α -> Bool} {xs : List α}
    (hxs : xs.Pairwise R) (hkeep : forall x y, R x y -> keep y = true -> keep x = true) {x : α} :
    x ∈ xs.takeWhile keep ↔ x ∈ xs ∧ keep x = true := by
  constructor
  · intro hx
    exact ⟨(List.takeWhile_sublist keep).subset hx, List.mem_takeWhile_imp hx⟩
  · rintro ⟨hx, hkept⟩
    induction xs with
    | nil => cases hx
    | cons first rest ih =>
        rw [List.pairwise_cons] at hxs
        rcases List.mem_cons.mp hx with heq | hrest
        · rw [List.takeWhile_cons_of_pos (heq ▸ hkept)]
          exact heq ▸ List.mem_cons_self
        · rw [List.takeWhile_cons_of_pos (hkeep first x (hxs.1 x hrest) hkept)]
          exact List.mem_cons_of_mem _ (ih hxs.2 hrest)

def levels (roots : SearchRoots) (origin : Option Path) : List Path :=
  (origin.map (vendorLevels roots)).getD []

theorem mem_levels_iff {roots : SearchRoots} {origin : Option Path} {level : Path} :
    level ∈ levels roots origin ↔ IsLevel roots origin level := by
  unfold levels
  cases origin with
  | none =>
      constructor
      · intro h
        cases h
      · rintro ⟨⟨start, hstart, _⟩, _⟩
        cases hstart
  | some start =>
      have hlist : level ∈ vendorLevels roots start ↔
          level ∈ start.ancestors ∧ mayVendor roots level = true := by
        apply mem_takeWhile_iff start.pairwise_ancestors
        intro p q hpq hq
        rw [mayVendor_iff] at hq ⊢
        exact fun workspace hworkspace => hpq.trans (hq workspace hworkspace)
      show level ∈ vendorLevels roots start ↔ _
      rw [hlist, Path.mem_ancestors_iff, mayVendor_iff]
      constructor
      · rintro ⟨habove, hbelow⟩
        exact ⟨⟨start, rfl, habove⟩, hbelow⟩
      · rintro ⟨⟨_, hstart, habove⟩, hbelow⟩
        cases hstart
        exact ⟨habove, hbelow⟩

theorem pairwise_levels (roots : SearchRoots) (origin : Option Path) :
    (levels roots origin).Pairwise Path.LiesBelow := by
  unfold levels
  cases origin with
  | none => exact List.Pairwise.nil
  | some start => exact start.pairwise_ancestors.sublist (List.takeWhile_sublist _)

/-!
# The first directory that exists
-/

def vendorPlace (roots : SearchRoots) (path : String) (level : Path) : Path :=
  (level.join roots.vendorDir).join path

section Searching

variable (t : FileTree) (roots : SearchRoots) (path : String) (origin : Option Path)

def Unvendored : Prop :=
  forall level, IsLevel roots origin level -> t.isDir (vendorPlace roots path level) = false

/-- What a search finds: the package in the nearest vendor directory, or else below the system
root, or else in the workspace. -/
inductive Finds : Resolution -> Prop where
  | vendored {level : Path} (hlevel : IsLevel roots origin level)
      (hdir : t.isDir (vendorPlace roots path level) = true)
      (hnearest : forall nearer, IsLevel roots origin nearer -> nearer.LiesBelow level ->
        t.isDir (vendorPlace roots path nearer) = false) :
      Finds ⟨.vendored, some (vendorPlace roots path level)⟩
  | system {root : Path} (hvendored : Unvendored t roots path origin)
      (hroot : roots.system = some root) (hdir : t.isDir (root.join path) = true) :
      Finds ⟨.system, some (root.join path)⟩
  | user {workspace : Path} (hvendored : Unvendored t roots path origin)
      (hsystem : forall root, roots.system = some root -> t.isDir (root.join path) = false)
      (hworkspace : roots.workspace = some workspace)
      (hdir : t.isDir (workspace.join path) = true) :
      Finds ⟨.user, some (workspace.join path)⟩
  | absent (hvendored : Unvendored t roots path origin)
      (hsystem : forall root, roots.system = some root -> t.isDir (root.join path) = false)
      (huser : forall workspace, roots.workspace = some workspace ->
        t.isDir (workspace.join path) = false) :
      Finds ⟨.absent, none⟩

end Searching

section Search

variable {t : FileTree} {roots : SearchRoots} {path : String} {origin : Option Path}

theorem find?_candidates :
    (candidates roots path origin).find? (fun c => t.isDir c.2) =
      ((((levels roots origin).find? fun level => t.isDir (vendorPlace roots path level)).map
          fun level => (PackageKind.vendored, vendorPlace roots path level)).or
        ((roots.system.filter fun root => t.isDir (root.join path)).map
          fun root => (PackageKind.system, root.join path))).or
        ((roots.workspace.filter fun root => t.isDir (root.join path)).map
          fun root => (PackageKind.user, root.join path)) := by
  have hoption : forall (kind : PackageKind) (place : Option Path),
      (place.map fun root => (kind, root.join path)).toList.find? (fun c => t.isDir c.2) =
        (place.filter fun root => t.isDir (root.join path)).map
          fun root => (kind, root.join path) := by
    intro kind place
    cases place with
    | none => rfl
    | some root =>
        cases hdir : t.isDir (root.join path) with
        | true => simp [Option.filter, hdir]
        | false => simp [Option.filter, hdir]
  unfold candidates
  dsimp only
  rw [List.find?_append, List.find?_append, List.find?_map, hoption, hoption]
  rfl

theorem nearest_of_find? {level : Path}
    (h : ((levels roots origin).find? fun level => t.isDir (vendorPlace roots path level)) =
      some level) :
    IsLevel roots origin level ∧ t.isDir (vendorPlace roots path level) = true ∧
      forall nearer, IsLevel roots origin nearer -> nearer.LiesBelow level ->
        t.isDir (vendorPlace roots path nearer) = false := by
  rcases List.find?_eq_some_iff_append.mp h with ⟨hdir, before, behind, hlevels, hbefore⟩
  refine ⟨mem_levels_iff.mp (List.mem_of_find?_eq_some h), hdir, fun nearer hnearer hbelow => ?_⟩
  have hmem := mem_levels_iff.mpr hnearer
  have hpairwise := pairwise_levels roots origin
  rw [hlevels] at hmem hpairwise
  rcases List.mem_append.mp hmem with hmem | hmem
  · simpa using hbefore nearer hmem
  · rcases List.mem_cons.mp hmem with heq | hmem
    · exact absurd (heq ▸ hbelow) (Path.LiesBelow.irrefl level)
    · have hfarther := (List.pairwise_cons.mp (List.pairwise_append.mp hpairwise).2.1).1
      exact absurd (hbelow.trans (hfarther nearer hmem)) (Path.LiesBelow.irrefl nearer)

theorem unvendored_of_find?
    (h : ((levels roots origin).find? fun level => t.isDir (vendorPlace roots path level)) =
      none) : Unvendored t roots path origin := by
  intro level hlevel
  simpa using List.find?_eq_none.mp h level (mem_levels_iff.mpr hlevel)

theorem filter_eq_none {place : Option Path}
    (h : place.filter (fun root => t.isDir (root.join path)) = none) :
    forall root, place = some root -> t.isDir (root.join path) = false := by
  rintro root rfl
  simpa [Option.filter] using h

theorem filter_eq_some {place : Option Path} {root : Path}
    (h : place.filter (fun root => t.isDir (root.join path)) = some root) :
    place = some root ∧ t.isDir (root.join path) = true :=
  Option.filter_eq_some_iff.mp h

def found (t : FileTree) (roots : SearchRoots) (path : String) (origin : Option Path) :
    Resolution :=
  match (candidates roots path origin).find? fun c => t.isDir c.2 with
  | some (kind, dir) => ⟨kind, some dir⟩
  | none => ⟨.absent, none⟩

theorem finds_found : Finds t roots path origin (found t roots path origin) := by
  unfold found
  rw [find?_candidates]
  cases hvendored : (levels roots origin).find? fun level =>
      t.isDir (vendorPlace roots path level) with
  | some level =>
      rcases nearest_of_find? hvendored with ⟨hlevel, hdir, hnearest⟩
      exact .vendored hlevel hdir hnearest
  | none =>
      have hnone := unvendored_of_find? hvendored
      cases hsystem : roots.system.filter fun root => t.isDir (root.join path) with
      | some root =>
          rcases filter_eq_some hsystem with ⟨hroot, hdir⟩
          exact .system hnone hroot hdir
      | none =>
          have hno := filter_eq_none hsystem
          cases huser : roots.workspace.filter fun root => t.isDir (root.join path) with
          | some workspace =>
              rcases filter_eq_some huser with ⟨hworkspace, hdir⟩
              exact .user hnone hno hworkspace hdir
          | none => exact .absent hnone hno (filter_eq_none huser)

/-- Of two levels one is the nearer, so the nearest is one level. -/
theorem nearest_unique {level other : Path} (hlevel : IsLevel roots origin level)
    (hother : IsLevel roots origin other) (hdir : t.isDir (vendorPlace roots path level) = true)
    (hdir' : t.isDir (vendorPlace roots path other) = true)
    (hnearest : forall nearer, IsLevel roots origin nearer -> nearer.LiesBelow level ->
      t.isDir (vendorPlace roots path nearer) = false)
    (hnearest' : forall nearer, IsLevel roots origin nearer -> nearer.LiesBelow other ->
      t.isDir (vendorPlace roots path nearer) = false) : level = other := by
  rcases hlevel.above with ⟨start, hstart, hclimbs⟩
  rcases hother.above with ⟨start', hstart', hclimbs'⟩
  cases hstart.symm.trans hstart'
  rcases hclimbs.total hclimbs' with hway | hway
  · rcases hway.eq_or_liesBelow with heq | hbelow
    · exact heq
    · exact absurd hdir (by simp [hnearest' level hlevel hbelow])
  · rcases hway.eq_or_liesBelow with heq | hbelow
    · exact heq.symm
    · exact absurd hdir' (by simp [hnearest other hother hbelow])

theorem Finds.unique {r r' : Resolution} (h : Finds t roots path origin r)
    (h' : Finds t roots path origin r') : r = r' := by
  cases h with
  | vendored hlevel hdir hnearest =>
      cases h' with
      | vendored hlevel' hdir' hnearest' =>
          cases nearest_unique hlevel hlevel' hdir hdir' hnearest hnearest'
          rfl
      | system hno | user hno | absent hno =>
          exact absurd hdir (by simp [hno _ hlevel])
  | system hno hroot hdir =>
      cases h' with
      | vendored hlevel' hdir' => exact absurd hdir' (by simp [hno _ hlevel'])
      | system _ hroot' =>
          cases hroot.symm.trans hroot'
          rfl
      | user _ hsystem | absent _ hsystem => exact absurd hdir (by simp [hsystem _ hroot])
  | user hno hsystem hworkspace hdir =>
      cases h' with
      | vendored hlevel' hdir' => exact absurd hdir' (by simp [hno _ hlevel'])
      | system _ hroot' hdir' => exact absurd hdir' (by simp [hsystem _ hroot'])
      | user _ _ hworkspace' =>
          cases hworkspace.symm.trans hworkspace'
          rfl
      | absent _ _ huser => exact absurd hdir (by simp [huser _ hworkspace])
  | absent hno hsystem huser =>
      cases h' with
      | vendored hlevel' hdir' => exact absurd hdir' (by simp [hno _ hlevel'])
      | system _ hroot' hdir' => exact absurd hdir' (by simp [hsystem _ hroot'])
      | user _ _ hworkspace' hdir' => exact absurd hdir' (by simp [huser _ hworkspace'])
      | absent => rfl

/-!
# Where it is found
-/

/-- Where what was found lies, by its kind.  A vendored package lies below the workspace if there
is one; names alone lead to it from there if they lead to the origin. -/
def Contained (roots : SearchRoots) (origin : Option Path) : Resolution -> Prop
  | ⟨.vendored, some dir⟩ =>
      forall workspace, roots.workspace = some workspace ->
        dir.LiesBelow workspace ∧
          ((forall start, origin = some start -> start.NamedBelow workspace) ->
            dir.NamedBelow workspace)
  | ⟨.system, some dir⟩ => exists root, roots.system = some root ∧ dir.NamedBelow root
  | ⟨.user, some dir⟩ => exists root, roots.workspace = some root ∧ dir.NamedBelow root
  | ⟨kind, none⟩ => kind = .absent
  | _ => False

theorem vendorPlace_namedBelow {name : String}
    (hvendor : (Path.mk roots.vendorDir).components = [.normal name]) (hpath : Path.IsNamed path)
    (level : Path) : (vendorPlace roots path level).NamedBelow level := by
  have hfirst : (level.join roots.vendorDir).NamedBelow level := by
    refine ⟨name, [], ?_⟩
    rw [Path.components_join_eq level (Path.beginsWithName_of_components hvendor), hvendor]
    rfl
  exact (Path.namedBelow_join _ hpath).trans hfirst

theorem Finds.contained {r : Resolution} {name : String}
    (hvendor : (Path.mk roots.vendorDir).components = [.normal name]) (hpath : Path.IsNamed path)
    (h : Finds t roots path origin r) : Contained roots origin r := by
  cases h with
  | vendored hlevel =>
      intro workspace hworkspace
      have hplace := vendorPlace_namedBelow hvendor hpath
      have hbelow := hlevel.below workspace hworkspace
      rcases hlevel.above with ⟨start, hstart, hclimbs⟩
      constructor
      · exact (hplace _).liesBelow.trans hbelow
      · intro hnames
        exact (hplace _).trans ((hnames start hstart).of_climbs hclimbs hbelow)
  | system _ hroot => exact ⟨_, hroot, Path.namedBelow_join _ hpath⟩
  | user _ _ hworkspace => exact ⟨_, hworkspace, Path.namedBelow_join _ hpath⟩
  | absent => rfl

end Search

/-!
# Searching
-/

section Resolving

variable (t : FileTree) (roots : SearchRoots) (path : String) (origin : Option Path)

theorem resolve_of_refused {path : String} (h : Refused path) :
    resolve t roots path origin = .error (.invalidImportPath path) := by
  unfold resolve validate
  rw [isValid_eq_false_iff.mpr h]
  rfl

theorem resolve_of_not_refused {path : String} (h : ¬ Refused path) :
    resolve t roots path origin = .ok (found t roots path origin) := by
  have hvalid : isValid path = true := by
    by_contra hinvalid
    exact h (isValid_eq_false_iff.mp (Bool.eq_false_iff.mpr hinvalid))
  unfold resolve validate found
  rw [hvalid]
  cases (candidates roots path origin).find? fun c => t.isDir c.2 with
  | some c => rfl
  | none => rfl

theorem finds_of_resolve {r : Resolution} (h : resolve t roots path origin = .ok r) :
    ¬ Refused path ∧ Finds t roots path origin r := by
  by_cases hrefused : Refused path
  · rw [resolve_of_refused t roots origin hrefused] at h
    cases h
  · rw [resolve_of_not_refused t roots origin hrefused] at h
    cases h
    exact ⟨hrefused, finds_found⟩

/-- A search fails where the import path is refused and nowhere else.  Elsewhere it ends in the
first directory that exists, which lies below the root of its kind. -/
theorem resolve_searches {name : String}
    (hvendor : (Path.mk roots.vendorDir).components = [.normal name]) :
    (resolve t roots path origin = .error (.invalidImportPath path) ↔ Refused path) ∧
      (¬ Refused path -> exists r, resolve t roots path origin = .ok r) ∧
      (forall r, resolve t roots path origin = .ok r ↔
        ¬ Refused path ∧ Finds t roots path origin r) ∧
      forall r, resolve t roots path origin = .ok r -> Contained roots origin r := by
  have hfound : ¬ Refused path -> resolve t roots path origin = .ok (found t roots path origin) :=
    resolve_of_not_refused t roots origin
  refine ⟨⟨?_, resolve_of_refused t roots origin⟩, fun hnot => ⟨_, hfound hnot⟩, fun r =>
    ⟨finds_of_resolve t roots path origin, ?_⟩, ?_⟩
  · intro h
    by_contra hnot
    rw [hfound hnot] at h
    cases h
  · rintro ⟨hnot, hfinds⟩
    rw [hfound hnot, finds_found.unique hfinds]
  · intro r h
    rcases finds_of_resolve t roots path origin h with ⟨hnot, hfinds⟩
    exact hfinds.contained hvendor (isNamed_of_not_refused hnot)

end Resolving

def vendoringTree : FileTree :=
  ⟨[(["work", "app", "vendor", "dep", "a.go"], []), (["go", "dep", "b.go"], [])], [], ["work"]⟩

def vendoringRoots : SearchRoots := ⟨some ⟨"/work"⟩, some ⟨"/go"⟩, "vendor"⟩

theorem resolve_searches_nearby :
    exists r, resolve vendoringTree vendoringRoots "dep" (some ⟨"/work/app/cmd"⟩) = .ok r ∧
      Finds vendoringTree vendoringRoots "dep" (some ⟨"/work/app/cmd"⟩) r ∧
      Contained vendoringRoots (some ⟨"/work/app/cmd"⟩) r ∧ r.kind = .vendored := by
  have hvendor : (Path.mk vendoringRoots.vendorDir).components = [.normal "vendor"] := by decide
  have h := resolve_searches vendoringTree vendoringRoots "dep" (some ⟨"/work/app/cmd"⟩) hvendor
  have hresolve : resolve vendoringTree vendoringRoots "dep" (some ⟨"/work/app/cmd"⟩) =
      .ok (found vendoringTree vendoringRoots "dep" (some ⟨"/work/app/cmd"⟩)) := by rfl
  exact ⟨_, hresolve, ((h.2.2.1 _).mp hresolve).2, h.2.2.2 _ hresolve, by decide⟩

/-!
# From a file back to its package
-/

theorem after?_eq_some_iff {base cs rest : List Component} :
    Path.after? base cs = some rest ↔ cs = base ++ rest := by
  induction base generalizing cs with
  | nil => simp [Path.after?, eq_comm]
  | cons b base ih =>
      cases cs with
      | nil => simp [Path.after?]
      | cons c cs =>
          unfold Path.after?
          by_cases hsame : b = c
          · simp [hsame, ih]
          · simp [hsame, Ne.symm hsame]

theorem slashed_pieceStrings (path : String) :
    slashed (Text.pieceStrings '/' path) = some path := by
  unfold slashed
  rw [Text.intercalate_pieceStrings, if_neg]
  simpa using Text.pieceStrings_ne_nil '/' path

theorem importBelow?_of_components {dir root : Path} {path : String}
    (h : dir.components = root.components ++ (Text.pieceStrings '/' path).map Component.normal) :
    importBelow? dir root = some path := by
  have htexts : ((Text.pieceStrings '/' path).map Component.normal).map Component.text =
      Text.pieceStrings '/' path := by
    rw [List.map_map]
    exact List.map_id'' (fun _ => rfl) _
  unfold importBelow? Path.below?
  rw [after?_eq_some_iff.mpr h, Option.bind_some, htexts, slashed_pieceStrings]

/-- Two roots above one directory lie one above the other. -/
theorem importBelow?_eq_none {dir root other : Path} (hdir : dir.startsWith other = true)
    (happart : root.startsWith other = false) (happart' : other.startsWith root = false) :
    importBelow? dir root = none := by
  unfold importBelow? Path.below?
  cases hafter : Path.after? root.components dir.components with
  | none => rfl
  | some rest =>
      have hroot : dir.startsWith root = true :=
        Path.startsWith_iff.mpr ⟨rest, after?_eq_some_iff.mp hafter⟩
      unfold Path.startsWith at hdir hroot happart happart'
      rw [List.isPrefixOf_iff_prefix] at hdir hroot
      rcases List.prefix_or_prefix_of_prefix hdir hroot with habove | habove
      · exact absurd (List.isPrefixOf_iff_prefix.mpr habove) (by simp [happart])
      · exact absurd (List.isPrefixOf_iff_prefix.mpr habove) (by simp [happart'])

theorem afterLast?_eq_none {name : String} {cs : List Component} (h : .normal name ∉ cs) :
    afterLast? name cs = none := by
  induction cs with
  | nil => rfl
  | cons c rest ih =>
      rw [List.mem_cons, not_or] at h
      unfold afterLast?
      rw [ih h.2]
      simp [Ne.symm h.1]

theorem afterLast?_append {name : String} {front back : List Component}
    (h : .normal name ∉ back) :
    afterLast? name (front ++ .normal name :: back) = some back := by
  induction front with
  | nil =>
      rw [List.nil_append, afterLast?, afterLast?_eq_none h]
      simp
  | cons c front ih =>
      rw [List.cons_append, afterLast?, ih]

theorem normal_mem_names_iff {name : String} {names : List String} :
    Component.normal name ∈ names.map Component.normal ↔ name ∈ names := by
  simp

/-- A base name, as a directory lists its files. -/
def IsBaseName (name : String) : Prop :=
  Path.IsSegment name ∧ name ≠ "" ∧ name ≠ "." ∧ name ≠ ".."

instance (name : String) : Decidable (IsBaseName name) :=
  inferInstanceAs (Decidable (_ ∧ _))

theorem IsBaseName.isNamed {name : String} (h : IsBaseName name) : Path.IsNamed name := by
  intro segment hsegment
  have hsegments : Text.pieceStrings '/' name = [name] := Path.segments_of_isSegment h.1
  rw [hsegments, List.mem_singleton] at hsegment
  exact hsegment ▸ h.2

theorem IsBaseName.components {name : String} (h : IsBaseName name) :
    (Path.mk name).components = [.normal name] := by
  rw [Path.components_of_names h.isNamed, Path.segments_of_isSegment h.1]
  rfl

theorem parent?_join (dir : Path) {name : String} (h : IsBaseName name) :
    exists parent, (dir.join name).parent? = some parent ∧
      parent.components = dir.components := by
  have hfile : (dir.join name).components = dir.components ++ [.normal name] := by
    rw [Path.components_join_names dir h.isNamed]
    rw [show Text.pieceStrings '/' name = [name] from Path.segments_of_isSegment h.1]
    rfl
  cases hparent : (dir.join name).parent? with
  | none =>
      rcases Path.components_of_parent?_eq_none hparent with hempty | hroot
      · rw [hempty] at hfile
        exact absurd hfile.symm (List.append_ne_nil_of_right_ne_nil _ (List.cons_ne_nil _ _))
      · rw [hroot] at hfile
        have hlast := congrArg List.getLast? hfile
        rw [List.getLast?_concat] at hlast
        cases hlast
  | some parent =>
      rcases Path.components_of_parent? hparent with ⟨c, hc⟩
      rw [hfile] at hc
      exact ⟨parent, rfl, (List.append_inj_left' hc rfl).symm⟩

section Reclaiming

variable {t : FileTree} {roots : SearchRoots} {path : String} {origin : Option Path}

theorem vendoredImport?_of_components {dir : Path} {front : List Component}
    (hapart : roots.vendorDir ∉ Text.pieceStrings '/' path)
    (h : dir.components =
      front ++ .normal roots.vendorDir :: (Text.pieceStrings '/' path).map Component.normal) :
    vendoredImport? roots dir = some path := by
  unfold vendoredImport?
  rw [h, afterLast?_append (mt normal_mem_names_iff.mp hapart), Option.bind_some,
    List.filterMap_map]
  exact (congrArg slashed List.filterMap_some).trans (slashed_pieceStrings path)

theorem vendoredImport?_eq_none {dir : Path} (h : .normal roots.vendorDir ∉ dir.components) :
    vendoredImport? roots dir = none := by
  unfold vendoredImport?
  rw [afterLast?_eq_none h]
  rfl

theorem systemImport?_eq_none {workspace dir : Path}
    (hroots : forall root, roots.system = some root ->
      root.startsWith workspace = false ∧ workspace.startsWith root = false)
    (hdir : dir.startsWith workspace = true) : roots.system.bind (importBelow? dir) = none := by
  cases hroot : roots.system with
  | none => rfl
  | some root => exact importBelow?_eq_none hdir (hroots root hroot).1 (hroots root hroot).2

theorem components_vendorPlace (hvendor : IsBaseName roots.vendorDir) (hpath : Path.IsNamed path)
    (level : Path) :
    (vendorPlace roots path level).components =
      level.components ++
        .normal roots.vendorDir :: (Text.pieceStrings '/' path).map Component.normal := by
  unfold vendorPlace
  rw [Path.components_join_names _ hpath, Path.components_join_eq _
    (Path.beginsWithName_of_isNamed hvendor.isNamed), hvendor.components, List.append_assoc]
  rfl

theorem filePackage_of_resolve {workspace dir : Path} {kind : PackageKind} {file : String}
    (hworkspace : roots.workspace = some workspace)
    (hroots : forall root, roots.system = some root ->
      root.startsWith workspace = false ∧ workspace.startsWith root = false)
    (hvendor : IsBaseName roots.vendorDir)
    (hnot : .normal roots.vendorDir ∉ workspace.components)
    (hpath : roots.vendorDir ∉ Text.pieceStrings '/' path) (hfile : IsBaseName file)
    (h : resolve t roots path origin = .ok ⟨kind, some dir⟩) :
    filePackage roots (dir.join file) = .ok (kind, path) := by
  rcases finds_of_resolve t roots path origin h with ⟨hrefused, hfinds⟩
  have hnamed := isNamed_of_not_refused hrefused
  rcases parent?_join dir hfile with ⟨parent, hparent, hsame⟩
  unfold filePackage
  rw [hparent]
  dsimp only
  cases hfinds with
  | @vendored level hlevel =>
      have hdir := hsame.trans (components_vendorPlace hvendor hnamed level)
      have hstarts : parent.startsWith workspace = true := by
        rcases hlevel.below workspace hworkspace with ⟨c, rest, hbelow⟩
        rw [Path.startsWith_iff, hdir, hbelow, List.append_assoc]
        exact ⟨_, rfl⟩
      rw [systemImport?_eq_none hroots hstarts, vendoredImport?_of_components hpath hdir]
  | @system root _ hroot =>
      have hdir := hsame.trans (Path.components_join_names root hnamed)
      rw [hroot, Option.bind_some, importBelow?_of_components hdir]
  | user _ _ hroot =>
      cases hworkspace.symm.trans hroot
      have hdir := hsame.trans (Path.components_join_names workspace hnamed)
      have hstarts : parent.startsWith workspace = true := Path.startsWith_iff.mpr ⟨_, hdir⟩
      have habsent : .normal roots.vendorDir ∉ parent.components := by
        rw [hdir, List.mem_append, normal_mem_names_iff, not_or]
        exact ⟨hnot, hpath⟩
      rw [systemImport?_eq_none hroots hstarts, vendoredImport?_eq_none habsent, hworkspace,
        Option.bind_some, importBelow?_of_components hdir]

end Reclaiming

theorem filePackage_of_resolve_nearby :
    resolve vendoringTree vendoringRoots "dep" (some ⟨"/work/app/cmd"⟩) =
        .ok ⟨.vendored, some ⟨"/work/app/vendor/dep"⟩⟩ ∧
      filePackage vendoringRoots (Path.join ⟨"/work/app/vendor/dep"⟩ "a.go") =
        .ok (.vendored, "dep") := by
  have hresolve : resolve vendoringTree vendoringRoots "dep" (some ⟨"/work/app/cmd"⟩) =
      .ok ⟨.vendored, some ⟨"/work/app/vendor/dep"⟩⟩ := by rfl
  have hroots : forall root, vendoringRoots.system = some root ->
      root.startsWith ⟨"/work"⟩ = false ∧ Path.startsWith ⟨"/work"⟩ root = false := by
    intro root hroot
    cases hroot
    decide
  exact ⟨hresolve, filePackage_of_resolve rfl hroots (by decide) (by decide) (by decide)
    (by decide) hresolve⟩

end Provenance
end GoAtlas
