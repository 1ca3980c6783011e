import GoAtlas.Proofs.Path
import Mathlib.Data.List.Nodup
import Mathlib.Data.List.Perm.Subperm

/-!
# How many import paths lead to directories

A valid import path that leads to a directory, from wherever it is joined, is a run of names in
a location of the tree.  A location of `n` names has at most `n * n` runs, so a tree has no more
such import paths than `FileTree.importBound`.
-/

namespace GoAtlas
namespace FileTree

/-!
# Following components
-/

theorem follow_append (t : FileTree) (l : Location) (front back : List Component) :
    t.follow l (front ++ back) = (t.follow l front).bind fun m => t.follow m back := by
  induction front generalizing l with
  | nil => rfl
  | cons c rest ih =>
      simp only [List.cons_append, follow]
      by_cases hdir : t.isDirAt l = true
      · rw [if_pos hdir, if_pos hdir]
        cases c with
        | root => exact ih []
        | here => exact ih l
        | up => exact ih l.dropLast
        | normal name => exact ih (l ++ [name])
      · rw [if_neg hdir, if_neg hdir]
        rfl

theorem follow_names {t : FileTree} {l m : Location} {names : List String}
    (h : t.follow l (names.map Component.normal) = some m) : m = l ++ names := by
  induction names generalizing l with
  | nil =>
      rw [List.append_nil]
      exact (Option.some.inj h).symm
  | cons name rest ih =>
      rw [List.map_cons, follow] at h
      split at h
      · have hm := ih h
        rw [hm, List.append_assoc]
        rfl
      · cases h

theorem locate?_names {t : FileTree} {p : Path} {before : List Component} {names : List String}
    {m : Location} (hp : p.components = before ++ names.map Component.normal)
    (h : t.locate? p = some m) : exists l, m = l ++ names := by
  unfold locate? at h
  split at h
  · cases h
  · rw [hp, follow_append] at h
    rcases Option.bind_eq_some_iff.mp h with ⟨l, _, hnames⟩
    exact ⟨l, follow_names hnames⟩

/-!
# Runs of names
-/

def locations (t : FileTree) : List Location :=
  t.here :: (t.dirs ++ t.files.map (·.1))

theorem prefix_of_isDirAt {t : FileTree} {l : Location} (h : t.isDirAt l = true) :
    exists m, m ∈ t.locations ∧ l <+: m := by
  unfold isDirAt at h
  simp only [Bool.or_eq_true, List.any_eq_true, List.isPrefixOf_iff_prefix] at h
  unfold locations
  rcases h with (hhere | ⟨d, hd, hdir⟩) | ⟨f, hf, hfile⟩
  · exact ⟨t.here, List.mem_cons_self, hhere⟩
  · exact ⟨d, List.mem_cons_of_mem _ (List.mem_append_left _ hd), hdir⟩
  · refine ⟨f.1, List.mem_cons_of_mem _ (List.mem_append_right _ (List.mem_map_of_mem hf)), ?_⟩
    exact hfile.trans (List.dropLast_prefix f.1)

def runs (l : Location) : List (List String) :=
  (List.range l.length).flatMap fun i =>
    (List.range l.length).map fun n => (l.drop i).take (n + 1)

theorem length_runs (l : Location) : (runs l).length = l.length * l.length := by
  unfold runs
  rw [List.length_flatMap]
  simp only [List.length_map, List.length_range]
  rw [List.map_const', List.sum_replicate_nat, List.length_range]

theorem mem_runs_of_infix {names : List String} {l : Location} (hne : names ≠ [])
    (h : names <:+: l) : names ∈ runs l := by
  rcases h with ⟨before, after, hl⟩
  have hpos : 0 < names.length := List.length_pos_iff.mpr hne
  have hlength : before.length + names.length + after.length = l.length := by
    rw [← hl, List.length_append, List.length_append]
  unfold runs
  rw [List.mem_flatMap]
  refine ⟨before.length, List.mem_range.mpr (by omega), ?_⟩
  rw [List.mem_map]
  refine ⟨names.length - 1, List.mem_range.mpr (by omega), ?_⟩
  rw [Nat.sub_add_cancel hpos, ← hl, List.append_assoc, List.drop_left, List.take_left]

def allRuns (t : FileTree) : List (List String) :=
  t.locations.flatMap runs

theorem foldl_length_runs {α : Type} (f : α -> Location) (xs : List α) (n : Nat) :
    xs.foldl (fun n x => n + (f x).length * (f x).length) n =
      n + ((xs.map f).flatMap runs).length := by
  induction xs generalizing n with
  | nil => rfl
  | cons x rest ih =>
      rw [List.foldl_cons, ih, List.map_cons, List.flatMap_cons, List.length_append, length_runs]
      omega

theorem length_allRuns (t : FileTree) : t.allRuns.length = t.importBound := by
  have hdirs := foldl_length_runs id t.dirs (t.here.length * t.here.length)
  have hfiles := foldl_length_runs (·.1) t.files
    (t.here.length * t.here.length + ((t.dirs.map id).flatMap runs).length)
  unfold importBound allRuns locations
  rw [List.map_id] at hdirs hfiles
  dsimp only [id] at hdirs hfiles ⊢
  rw [hdirs, hfiles, List.flatMap_cons, List.flatMap_append, List.length_append,
    List.length_append, length_runs, Nat.add_assoc]

/-!
# Import paths
-/

def Leads (t : FileTree) (path : String) : Prop :=
  Provenance.isValid path = true ∧ exists base : Path, t.isDir (base.join path) = true

theorem mem_allRuns_of_isDir {t : FileTree} {base : Path} {path : String}
    (hnames : Path.IsNamed path) (hdir : t.isDir (base.join path) = true) :
    Text.pieceStrings '/' path ∈ t.allRuns := by
  rcases Path.components_join base hnames with ⟨before, hcomponents⟩
  unfold isDir at hdir
  split at hdir
  · next m hlocate =>
      rcases locate?_names hcomponents hlocate with ⟨l, rfl⟩
      rcases prefix_of_isDirAt hdir with ⟨location, hlocation, hprefix⟩
      have hinfix : Text.pieceStrings '/' path <:+: location :=
        (List.suffix_append l _).isInfix.trans hprefix.isInfix
      exact List.mem_flatMap.mpr
        ⟨location, hlocation, mem_runs_of_infix (Text.pieceStrings_ne_nil '/' path) hinfix⟩
  · cases hdir

theorem mem_allRuns_of_leads {t : FileTree} {path : String} (h : t.Leads path) :
    Text.pieceStrings '/' path ∈ t.allRuns := by
  rcases h with ⟨hvalid, base, hdir⟩
  exact mem_allRuns_of_isDir (Provenance.isNamed_of_isValid hvalid) hdir

theorem length_le_importBound {t : FileTree} {paths : List String} (hnodup : paths.Nodup)
    (h : forall path, path ∈ paths -> t.Leads path) : paths.length ≤ t.importBound := by
  have hsegments : (paths.map (Text.pieceStrings '/')).Nodup :=
    hnodup.map fun _ _ => Text.pieceStrings_injective '/'
  have hsubset : paths.map (Text.pieceStrings '/') ⊆ t.allRuns := by
    intro segments hmem
    rcases List.mem_map.mp hmem with ⟨path, hpath, rfl⟩
    exact mem_allRuns_of_leads (h path hpath)
  have hlength := (List.subperm_of_subset hsegments hsubset).length_le
  rw [List.length_map, length_allRuns] at hlength
  exact hlength

end FileTree
end GoAtlas
