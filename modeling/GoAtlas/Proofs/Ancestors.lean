import GoAtlas.Proofs.Path
import Mathlib.Data.List.DropRight

/-!
# Ancestors of paths

The parent of a path has all of its components but the last, and joining adds the components of
what is joined.  The ancestors that are listed from a path outward are the paths that are reached
by going from parent to parent, and each lies below all that follow it.
-/

namespace GoAtlas

namespace Text

/-!
# Putting pieces together
-/

theorem sep_notMem_of_mem_pieces {sep : Char} {cs piece : List Char} (h : piece ∈ pieces sep cs) :
    sep ∉ piece := by
  induction cs generalizing piece with
  | nil =>
      rw [pieces, List.mem_singleton] at h
      rw [h]
      exact List.not_mem_nil
  | cons c rest ih =>
      by_cases hsep : c = sep
      · rw [hsep, pieces_sep_cons] at h
        rcases List.mem_cons.mp h with hempty | hrest
        · rw [hempty]
          exact List.not_mem_nil
        · exact ih hrest
      · rcases hpieces : pieces sep rest with _ | ⟨first, more⟩
        · exact absurd hpieces (pieces_ne_nil sep rest)
        · rw [pieces_cons_of_ne hsep hpieces] at h
          rcases List.mem_cons.mp h with hfirst | hmore
          · rw [hfirst, List.mem_cons, not_or]
            exact ⟨Ne.symm hsep, ih (hpieces ▸ List.mem_cons_self)⟩
          · exact ih (hpieces ▸ List.mem_cons_of_mem _ hmore)

theorem pieces_of_notMem {sep : Char} {cs : List Char} (h : sep ∉ cs) : pieces sep cs = [cs] := by
  induction cs with
  | nil => rfl
  | cons c rest ih =>
      rw [List.mem_cons, not_or] at h
      exact pieces_cons_of_ne (Ne.symm h.1) (ih h.2)

theorem pieces_intercalate {sep : Char} {ps : List (List Char)} (hne : ps ≠ [])
    (h : forall piece, piece ∈ ps -> sep ∉ piece) : pieces sep ([sep].intercalate ps) = ps := by
  induction ps with
  | nil => exact absurd rfl hne
  | cons first rest ih =>
      have hfirst := pieces_of_notMem (h first List.mem_cons_self)
      cases rest with
      | nil => rw [List.intercalate_singleton, hfirst]
      | cons second more =>
          have hrest := ih (List.cons_ne_nil _ _) fun piece hp =>
            h piece (List.mem_cons_of_mem _ hp)
          rw [List.intercalate_cons_cons, List.append_assoc, List.singleton_append,
            pieces_append_sep, hfirst, hrest, List.singleton_append]

theorem intercalate_pieceStrings (s : String) :
    String.intercalate "/" (pieceStrings '/' s) = s := by
  apply String.toList_injective
  have hpieces : (pieceStrings '/' s).map String.toList = pieces '/' s.toList := by
    unfold pieceStrings
    rw [List.map_map]
    exact List.map_id'' (fun _ => String.toList_ofList) _
  rw [String.toList_intercalate, hpieces]
  exact intercalate_pieces '/' s.toList

end Text

namespace Path

def LiesBelow (p base : Path) : Prop :=
  exists c rest, p.components = base.components ++ c :: rest

/-!
# Components by segments
-/

theorem segments_ne_nil (p : Path) : p.segments ≠ [] :=
  Text.pieceStrings_ne_nil '/' p.text

def IsSegment (segment : String) : Prop :=
  '/' ∉ segment.toList

instance (segment : String) : Decidable (IsSegment segment) :=
  inferInstanceAs (Decidable ('/' ∉ segment.toList))

theorem isSegment_of_mem_segments {p : Path} {segment : String} (h : segment ∈ p.segments) :
    IsSegment segment := by
  rcases List.mem_map.mp h with ⟨piece, hpiece, rfl⟩
  unfold IsSegment
  rw [String.toList_ofList]
  exact Text.sep_notMem_of_mem_pieces hpiece

theorem segments_intercalate {segments : List String} (hne : segments ≠ [])
    (h : forall segment, segment ∈ segments -> IsSegment segment) :
    (Path.mk (String.intercalate "/" segments)).segments = segments := by
  have hpieces : forall piece, piece ∈ segments.map String.toList -> '/' ∉ piece := by
    intro piece hpiece
    rcases List.mem_map.mp hpiece with ⟨segment, hsegment, rfl⟩
    exact h segment hsegment
  have hne' : segments.map String.toList ≠ [] := by simpa using hne
  unfold Path.segments Text.pieceStrings
  rw [String.toList_intercalate]
  have hsplit := Text.pieces_intercalate hne' hpieces
  rw [show "/".toList = ['/'] from rfl, hsplit, List.map_map]
  exact List.map_id'' (fun _ => String.ofList_toList) _

theorem segments_of_isSegment {segment : String} (h : IsSegment segment) :
    (Path.mk segment).segments = [segment] := by
  unfold Path.segments Text.pieceStrings
  rw [Text.pieces_of_notMem h, List.map_singleton, String.ofList_toList]

theorem isAbsolute_iff {p : Path} {first : String} {rest : List String}
    (h : p.segments = first :: rest) : p.isAbsolute = true ↔ first = "" ∧ rest ≠ [] := by
  unfold isAbsolute
  unfold segments Text.pieceStrings at h
  cases hchars : p.text.toList with
  | nil =>
      rw [hchars] at h
      cases h
      simp
  | cons c cs =>
      rw [hchars] at h
      by_cases hsep : c = '/'
      · rw [hsep, Text.pieces_sep_cons, List.map_cons] at h
        cases h
        constructor
        · intro _
          refine ⟨rfl, ?_⟩
          simpa using Text.pieces_ne_nil '/' cs
        · intro _
          simp [hsep]
      · rcases hpieces : Text.pieces '/' cs with _ | ⟨piece, more⟩
        · exact absurd hpieces (Text.pieces_ne_nil '/' cs)
        · rw [Text.pieces_cons_of_ne hsep hpieces, List.map_cons] at h
          cases h
          have hne : String.ofList (c :: piece) ≠ "" := by
            intro hempty
            have hlist := congrArg String.toList hempty
            rw [String.toList_ofList] at hlist
            cases hlist
          constructor
          · intro habsolute
            exact absurd (by simpa using habsolute) hsep
          · intro hempty
            exact absurd hempty.1 hne

def leading (first : String) (rest : List String) : List Component :=
  if first == "" then if rest.isEmpty then [] else [.root]
  else if first == "." then [.here]
  else componentsOf [first]

theorem components_eq {p : Path} {first : String} {rest : List String}
    (h : p.segments = first :: rest) : p.components = leading first rest ++ componentsOf rest := by
  have habsolute := isAbsolute_iff h
  unfold components leading
  rw [h]
  split
  · next tail heq =>
      cases heq
      cases rest with
      | nil =>
          have hrelative : p.isAbsolute = false := by simpa using habsolute
          rw [hrelative]
          rfl
      | cons second more =>
          have hroot : p.isAbsolute = true := by simpa using habsolute
          rw [hroot]
          rfl
  · next tail heq =>
      cases heq
      rfl
  · next hempty hdot =>
      have hne : first ≠ "" := fun heq => hempty rest (heq ▸ rfl)
      have hne' : first ≠ "." := fun heq => hdot rest (heq ▸ rfl)
      have hfirst : (first == "") = false := by simpa using hne
      have hfirst' : (first == ".") = false := by simpa using hne'
      rw [hfirst, hfirst']
      exact componentsOf_append [first] rest

theorem componentsOf_singleton {segment : String} (h : isIdle segment = false) :
    exists c, componentsOf [segment] = [c] := by
  unfold componentsOf
  by_cases hup : segment = ".."
  · exact ⟨.up, by rw [hup]; rfl⟩
  · exact ⟨.normal segment, by simp [h, hup]⟩

theorem leading_of_ne {first : String} (rest : List String) (h : first ≠ "") :
    exists c, leading first rest = [c] := by
  have hfirst : (first == "") = false := by simpa using h
  unfold leading
  rw [hfirst]
  by_cases hdot : first = "."
  · exact ⟨.here, by rw [hdot]; rfl⟩
  · have hfirst' : (first == ".") = false := by simpa using hdot
    rw [hfirst']
    exact componentsOf_singleton (by simp [isIdle, h, hdot])

theorem leading_congr {first : String} {rest rest' : List String}
    (h : first = "" -> (rest = [] ↔ rest' = [])) : leading first rest = leading first rest' := by
  unfold leading
  by_cases hempty : first = ""
  · have hisEmpty : rest.isEmpty = rest'.isEmpty := by
      rw [Bool.eq_iff_iff, List.isEmpty_iff, List.isEmpty_iff]
      exact h hempty
    rw [hisEmpty]
  · have hfirst : (first == "") = false := by simpa using hempty
    rw [hfirst]
    rfl

theorem componentsOf_eq_nil {segments : List String}
    (h : forall segment, segment ∈ segments -> isIdle segment = true) :
    componentsOf segments = [] := by
  unfold componentsOf
  rw [List.filterMap_eq_nil_iff]
  intro segment hsegment
  rw [h segment hsegment]
  rfl

theorem length_leading_le (first : String) (rest : List String) :
    (leading first rest).length ≤ 1 := by
  by_cases hempty : first = ""
  · unfold leading
    rw [hempty]
    cases rest.isEmpty with
    | true => exact Nat.zero_le 1
    | false => exact Nat.le_refl 1
  · rcases leading_of_ne rest hempty with ⟨c, hc⟩
    rw [hc]
    exact Nat.le_refl 1

theorem length_components_le (p : Path) : p.components.length ≤ p.segments.length := by
  rcases hsegments : p.segments with _ | ⟨first, rest⟩
  · exact absurd hsegments p.segments_ne_nil
  · have hrest : (componentsOf rest).length ≤ rest.length := List.length_filterMap_le _ _
    have hfirst := length_leading_le first rest
    rw [components_eq hsegments, List.length_append, List.length_cons]
    omega

theorem components_eq_nil_iff {p : Path} : p.components = [] ↔ p.text = "" := by
  rcases hsegments : p.segments with _ | ⟨first, rest⟩
  · exact absurd hsegments p.segments_ne_nil
  · rw [components_eq hsegments, List.append_eq_nil_iff]
    constructor
    · rintro ⟨hleading, _⟩
      by_cases hempty : first = ""
      · unfold leading at hleading
        cases rest with
        | nil =>
            have htext := Text.intercalate_pieceStrings p.text
            rw [show Text.pieceStrings '/' p.text = [first] from hsegments, hempty] at htext
            exact htext.symm
        | cons second more =>
            rw [hempty] at hleading
            cases hleading
      · rcases leading_of_ne rest hempty with ⟨c, hc⟩
        rw [hc] at hleading
        cases hleading
    · intro htext
      unfold segments at hsegments
      rw [htext] at hsegments
      cases hsegments
      exact ⟨rfl, rfl⟩

/-!
# Joining
-/

theorem segments_open {front first : String} {others : List String}
    (h : (Path.mk front).segments = first :: others) :
    (Path.mk (front ++ "/")).segments = first :: (others ++ [""]) := by
  have hsegments := segments_slash front ""
  rw [String.append_empty, h] at hsegments
  exact hsegments

theorem components_slash (front rest : String) :
    (Path.mk (front ++ "/" ++ rest)).components =
      (Path.mk (front ++ "/")).components ++ componentsOf (Path.mk rest).segments := by
  rcases hfront : (Path.mk front).segments with _ | ⟨first, others⟩
  · exact absurd hfront (segments_ne_nil _)
  · have hjoined : (Path.mk (front ++ "/" ++ rest)).segments =
        first :: (others ++ (Path.mk rest).segments) := by
      rw [segments_slash, hfront, List.cons_append]
    have hopen := segments_open hfront
    have hleading : leading first (others ++ (Path.mk rest).segments) =
        leading first (others ++ [""]) := by
      apply leading_congr
      intro _
      simp [segments_ne_nil]
    have hempty : componentsOf [""] = [] := rfl
    rw [components_eq hjoined, components_eq hopen, hleading, componentsOf_append,
      componentsOf_append, hempty, List.append_nil, List.append_assoc]

theorem components_open {front : String} (h : front ≠ "") :
    (Path.mk (front ++ "/")).components = (Path.mk front).components := by
  rcases hfront : (Path.mk front).segments with _ | ⟨first, others⟩
  · exact absurd hfront (segments_ne_nil _)
  · have hopen := segments_open hfront
    have hleading : leading first (others ++ [""]) = leading first others := by
      apply leading_congr
      intro hfirst
      have hothers : others ≠ [] := by
        rintro rfl
        have htext := Text.intercalate_pieceStrings front
        rw [show Text.pieceStrings '/' front = [first] from hfront, hfirst] at htext
        exact h htext.symm
      simp [hothers]
    have hempty : componentsOf [""] = [] := rfl
    rw [components_eq hopen, components_eq hfront, hleading, componentsOf_append, hempty,
      List.append_nil]

def BeginsWithName (text : String) : Prop :=
  forall first rest, (Path.mk text).segments = first :: rest -> isIdle first = false

theorem components_join_eq (base : Path) {rest : String} (h : BeginsWithName rest) :
    (base.join rest).components = base.components ++ (Path.mk rest).components := by
  rcases hrest : (Path.mk rest).segments with _ | ⟨name, more⟩
  · exact absurd hrest (segments_ne_nil _)
  · have hname := h name more hrest
    have hne : name ≠ "" := by
      rintro rfl
      cases hname
    have hdot : name ≠ "." := by
      rintro rfl
      cases hname
    have hrelative : (Path.mk rest).isAbsolute = false :=
      Bool.eq_false_iff.mpr fun habsolute => hne ((isAbsolute_iff hrest).mp habsolute).1
    have hadded : (Path.mk rest).components = componentsOf (Path.mk rest).segments := by
      have hfirst : (name == "") = false := by simpa using hne
      have hfirst' : (name == ".") = false := by simpa using hdot
      rw [components_eq hrest, hrest, leading, hfirst, hfirst']
      exact (componentsOf_append [name] more).symm
    unfold join
    rw [hrelative, Bool.false_or]
    split
    · next hempty =>
        rw [components_eq_nil_iff.mpr (beq_iff_eq.mp hempty), List.nil_append]
    · next hne =>
        split
        · next hslash =>
            rcases text_of_slash hslash with ⟨front, hfront⟩
            have hbase : base = ⟨front ++ "/"⟩ := congrArg Path.mk hfront
            rw [hbase, components_slash, hadded]
        · rw [components_slash, components_open (by simpa using hne), hadded]

theorem beginsWithName_of_isNamed {text : String} (h : IsNamed text) : BeginsWithName text := by
  intro first rest hsegments
  have hmem : first ∈ (Path.mk text).segments := hsegments ▸ List.mem_cons_self
  have hname := h first hmem
  simp [isIdle, hname.1, hname.2.1]

theorem components_join_names (base : Path) {text : String} (h : IsNamed text) :
    (base.join text).components =
      base.components ++ (Text.pieceStrings '/' text).map Component.normal := by
  rw [components_join_eq base (beginsWithName_of_isNamed h), components_of_names h]
  rfl

/-!
# Parents
-/

theorem dropIdleEnd_eq (segments : List String) :
    dropIdleEnd segments = segments.rdropWhile isIdle := rfl

theorem componentsOf_dropIdleEnd (segments : List String) :
    componentsOf (dropIdleEnd segments) = componentsOf segments := by
  rw [dropIdleEnd_eq]
  induction segments using List.reverseRecOn with
  | nil => rfl
  | append_singleton init last ih =>
      rw [List.rdropWhile_concat]
      split
      · next hidle =>
          have hlast : componentsOf [last] = [] :=
            componentsOf_eq_nil (by simpa using hidle)
          rw [ih, componentsOf_append, hlast, List.append_nil]
      · rfl

theorem dropIdleEnd_isPrefix (segments : List String) : dropIdleEnd segments <+: segments :=
  List.rdropWhile_prefix isIdle segments

theorem dropIdleEnd_cases (segments : List String) :
    dropIdleEnd segments = [] ∨
      exists init last, dropIdleEnd segments = init ++ [last] ∧ isIdle last = false := by
  by_cases hkept : dropIdleEnd segments = []
  · exact Or.inl hkept
  · refine Or.inr ⟨(dropIdleEnd segments).dropLast, (dropIdleEnd segments).getLast hkept, ?_, ?_⟩
    · exact (List.dropLast_append_getLast hkept).symm
    · exact Bool.eq_false_iff.mpr (List.rdropWhile_last_not isIdle segments hkept)

theorem parent?_of_kept {p : Path} {first last : String} {rest init : List String}
    (hsegments : p.segments = first :: rest) (hkept : dropIdleEnd rest = init ++ [last]) :
    p.parent? =
      if dropIdleEnd init = [] then if p.isAbsolute then some ⟨"/"⟩ else some ⟨first⟩
      else some ⟨String.intercalate "/" (first :: dropIdleEnd init)⟩ := by
  unfold parent?
  rw [hsegments]
  dsimp only
  rw [hkept]
  split
  · next hnil => cases (List.append_eq_nil_iff.mp hnil).2
  · rw [List.dropLast_concat]
    split
    · next hnil => rw [if_pos hnil]
    · next hne => rw [if_neg (by simpa using hne)]

theorem parent?_of_dropped {p : Path} {first : String} {rest : List String}
    (hsegments : p.segments = first :: rest) (hkept : dropIdleEnd rest = []) :
    p.parent? = if first = "" then none else some ⟨""⟩ := by
  unfold parent?
  rw [hsegments]
  dsimp only
  rw [hkept]
  simp only [beq_iff_eq]

theorem components_of_kept {p q : Path} {first last : String} {rest init : List String}
    (hsegments : p.segments = first :: rest) (hkept : dropIdleEnd rest = init ++ [last])
    (h : p.parent? = some q) :
    q.components = leading first rest ++ componentsOf (dropIdleEnd init) := by
  have hstart : init <+: rest :=
    (List.prefix_append init [last]).trans (hkept ▸ dropIdleEnd_isPrefix rest)
  have hrest : rest ≠ [] := by
    rintro rfl
    cases (List.append_eq_nil_iff.mp hkept.symm).2
  rw [parent?_of_kept hsegments hkept] at h
  split at h
  · next hnil =>
      have habsolute := isAbsolute_iff hsegments
      rw [hnil]
      split at h
      · next hroot =>
          cases h
          have hslash : (Path.mk "/").components = leading "" [""] := rfl
          have hleading : leading "" [""] = leading "" rest :=
            leading_congr fun _ => by simp [hrest]
          rw [(habsolute.mp hroot).1, hslash, hleading]
          exact (List.append_nil _).symm
      · next hrelative =>
          cases h
          have hfirst : first ≠ "" := fun heq => hrelative (habsolute.mpr ⟨heq, hrest⟩)
          have hsegment : IsSegment first :=
            isSegment_of_mem_segments (p := p) (hsegments ▸ List.mem_cons_self)
          rw [components_eq (segments_of_isSegment hsegment)]
          exact congrArg (· ++ []) (leading_congr fun heq => absurd heq hfirst)
  · next hne =>
      cases h
      have hall : forall segment, segment ∈ first :: dropIdleEnd init -> IsSegment segment := by
        intro segment hmem
        apply isSegment_of_mem_segments (p := p)
        rw [hsegments]
        rcases List.mem_cons.mp hmem with hfirst | hkept
        · exact hfirst ▸ List.mem_cons_self
        · exact List.mem_cons_of_mem _ (hstart.subset ((dropIdleEnd_isPrefix init).subset hkept))
      rw [components_eq (segments_intercalate (List.cons_ne_nil _ _) hall)]
      refine congrArg (· ++ _) (leading_congr fun _ => ?_)
      simp [hne, hrest]

theorem components_of_parent? {p q : Path} (h : p.parent? = some q) :
    exists c, p.components = q.components ++ [c] := by
  rcases hsegments : p.segments with _ | ⟨first, rest⟩
  · exact absurd hsegments p.segments_ne_nil
  · have hshort := componentsOf_dropIdleEnd rest
    rw [components_eq hsegments, ← hshort]
    rcases dropIdleEnd_cases rest with hkept | ⟨init, last, hkept, hlast⟩
    · rw [parent?_of_dropped hsegments hkept] at h
      split at h
      · cases h
      · next hfirst =>
          cases h
          rcases leading_of_ne rest hfirst with ⟨c, hc⟩
          refine ⟨c, ?_⟩
          rw [hc, hkept]
          rfl
    · rcases componentsOf_singleton hlast with ⟨c, hc⟩
      refine ⟨c, ?_⟩
      rw [components_of_kept hsegments hkept h, hkept, componentsOf_append, hc,
        componentsOf_dropIdleEnd, List.append_assoc]

theorem components_of_parent?_eq_none {p : Path} (h : p.parent? = none) :
    p.components = [] ∨ p.components = [.root] := by
  rcases hsegments : p.segments with _ | ⟨first, rest⟩
  · exact absurd hsegments p.segments_ne_nil
  · rcases dropIdleEnd_cases rest with hkept | ⟨init, last, hkept, _⟩
    · rw [parent?_of_dropped hsegments hkept] at h
      split at h
      · next hfirst =>
          have hshort := componentsOf_dropIdleEnd rest
          rw [hkept] at hshort
          rw [components_eq hsegments, ← hshort, hfirst]
          cases rest with
          | nil => exact Or.inl rfl
          | cons second more => exact Or.inr rfl
      · cases h
    · rw [parent?_of_kept hsegments hkept] at h
      split at h
      · split at h
        · cases h
        · cases h
      · cases h

/-!
# Going outward
-/

/-- The path itself, or a directory above it that is reached from parent to parent, with some text
left. -/
inductive Climbs : Path -> Path -> Prop where
  | here (p : Path) : Climbs p p
  | up {p parent q : Path} (hparent : p.parent? = some parent) (hne : parent.text ≠ "")
      (h : Climbs parent q) : Climbs p q

theorem LiesBelow.trans {p q r : Path} (hpq : p.LiesBelow q) (hqr : q.LiesBelow r) :
    p.LiesBelow r := by
  rcases hpq with ⟨c, rest, hp⟩
  rcases hqr with ⟨d, more, hq⟩
  refine ⟨d, more ++ c :: rest, ?_⟩
  rw [hp, hq, List.append_assoc, List.cons_append]

theorem LiesBelow.irrefl (p : Path) : ¬ p.LiesBelow p := by
  rintro ⟨c, rest, h⟩
  have hlength := congrArg List.length h
  rw [List.length_append, List.length_cons] at hlength
  omega

theorem liesBelow_parent {p q : Path} (h : p.parent? = some q) : p.LiesBelow q := by
  rcases components_of_parent? h with ⟨c, hc⟩
  exact ⟨c, [], hc⟩

namespace Climbs

variable {p q r : Path}

theorem eq_or_liesBelow (h : Climbs p q) : p = q ∨ p.LiesBelow q := by
  induction h with
  | here p => exact Or.inl rfl
  | up hparent _ _ ih =>
      have hbelow := liesBelow_parent hparent
      rcases ih with heq | hrest
      · exact Or.inr (heq ▸ hbelow)
      · exact Or.inr (hbelow.trans hrest)

/-- Two directories above a path lie on one way. -/
theorem total (hq : Climbs p q) (hr : Climbs p r) : Climbs q r ∨ Climbs r q := by
  induction hq with
  | here p => exact Or.inl hr
  | up hparent hne h ih =>
      cases hr with
      | here => exact Or.inr (.up hparent hne h)
      | up hparent' hne' h' =>
          cases hparent.symm.trans hparent'
          exact ih h'

end Climbs

theorem mem_ancestorsWithin_iff {fuel : Nat} {p q : Path} (h : p.components.length < fuel) :
    q ∈ ancestorsWithin fuel p ↔ Climbs p q := by
  induction fuel generalizing p with
  | zero => cases h
  | succ fuel ih =>
      unfold ancestorsWithin
      rw [List.mem_cons]
      constructor
      · rintro (hq | hq)
        · exact hq ▸ .here p
        · split at hq
          · next parent hparent =>
              split at hq
              · cases hq
              · next hne =>
                  rcases components_of_parent? hparent with ⟨c, hc⟩
                  rw [hc, List.length_append] at h
                  exact .up hparent (by simpa using hne)
                    ((ih (by simpa using Nat.lt_of_succ_lt_succ h)).mp hq)
          · cases hq
      · intro hclimbs
        cases hclimbs with
        | here => exact Or.inl rfl
        | up hparent hne hrest =>
            rcases components_of_parent? hparent with ⟨c, hc⟩
            rw [hc, List.length_append] at h
            refine Or.inr ?_
            rw [hparent]
            dsimp only
            rw [if_neg (by simpa using hne)]
            exact (ih (by simpa using Nat.lt_of_succ_lt_succ h)).mpr hrest

/-- The ancestors of a path are what is reached from parent to parent. -/
theorem mem_ancestors_iff {p q : Path} : q ∈ p.ancestors ↔ Climbs p q :=
  mem_ancestorsWithin_iff (Nat.lt_succ_of_le p.length_components_le)

theorem pairwise_ancestorsWithin (fuel : Nat) (p : Path) (h : p.components.length < fuel) :
    (ancestorsWithin fuel p).Pairwise LiesBelow := by
  induction fuel generalizing p with
  | zero => cases h
  | succ fuel ih =>
      unfold ancestorsWithin
      rw [List.pairwise_cons]
      split
      · next parent hparent =>
          split
          · exact ⟨List.forall_mem_nil _, List.Pairwise.nil⟩
          · rcases components_of_parent? hparent with ⟨c, hc⟩
            have hfuel : parent.components.length < fuel := by
              rw [hc, List.length_append] at h
              simpa using Nat.lt_of_succ_lt_succ h
            refine ⟨fun q hq => ?_, ih parent hfuel⟩
            have hbelow := liesBelow_parent hparent
            rcases ((mem_ancestorsWithin_iff hfuel).mp hq).eq_or_liesBelow with heq | hrest
            · exact heq ▸ hbelow
            · exact hbelow.trans hrest
      · exact ⟨List.forall_mem_nil _, List.Pairwise.nil⟩

theorem pairwise_ancestors (p : Path) : p.ancestors.Pairwise LiesBelow :=
  pairwise_ancestorsWithin _ p (Nat.lt_succ_of_le p.length_components_le)

end Path
end GoAtlas
