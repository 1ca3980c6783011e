import GoAtlas.Package.Provenance

/-!
# Segments and components of paths

A text is its pieces with the separators put back.  The segments of a valid import path are all
names, so that a directory to which it was joined ends in exactly these names.
-/

namespace GoAtlas

namespace Text

/-!
# Pieces
-/

theorem pieces_ne_nil (sep : Char) (cs : List Char) : pieces sep cs ≠ [] := by
  cases cs with
  | nil => simp [pieces]
  | cons c rest =>
      unfold pieces
      split
      · simp
      · split
        · simp
        · simp

theorem pieces_sep_cons (sep : Char) (rest : List Char) :
    pieces sep (sep :: rest) = [] :: pieces sep rest := by
  simp [pieces]

theorem pieces_cons_of_ne {sep c : Char} (hne : c ≠ sep) {rest : List Char} {first : List Char}
    {more : List (List Char)} (h : pieces sep rest = first :: more) :
    pieces sep (c :: rest) = (c :: first) :: more := by
  have hbeq : (c == sep) = false := by simpa using hne
  rw [pieces, hbeq, h]
  rfl

theorem pieces_append_sep (sep : Char) (front back : List Char) :
    pieces sep (front ++ sep :: back) = pieces sep front ++ pieces sep back := by
  induction front with
  | nil => simp [pieces]
  | cons c rest ih =>
      by_cases hsep : c = sep
      · subst hsep
        rw [List.cons_append, pieces_sep_cons, pieces_sep_cons, ih]
        rfl
      · rcases hpieces : pieces sep rest with _ | ⟨first, more⟩
        · exact absurd hpieces (pieces_ne_nil sep rest)
        · rw [hpieces] at ih
          rw [List.cons_append, pieces_cons_of_ne hsep ih, pieces_cons_of_ne hsep hpieces]
          rfl

theorem intercalate_pieces (sep : Char) (cs : List Char) :
    [sep].intercalate (pieces sep cs) = cs := by
  induction cs with
  | nil => simp [pieces]
  | cons c rest ih =>
      rcases hpieces : pieces sep rest with _ | ⟨first, more⟩
      · exact absurd hpieces (pieces_ne_nil sep rest)
      · rw [hpieces] at ih
        by_cases hsep : c = sep
        · subst hsep
          rw [pieces_sep_cons, hpieces, List.intercalate_cons_cons, ih]
          rfl
        · rw [pieces_cons_of_ne hsep hpieces]
          cases more with
          | nil =>
              simp only [List.intercalate_singleton] at ih ⊢
              rw [ih]
          | cons second others =>
              rw [List.intercalate_cons_cons] at ih ⊢
              rw [← ih]
              rfl

theorem pieceStrings_injective (sep : Char) {s t : String}
    (h : pieceStrings sep s = pieceStrings sep t) : s = t := by
  have hpieces : pieces sep s.toList = pieces sep t.toList :=
    (List.map_inj_right fun _ _ hab => String.ofList_injective hab).mp h
  have hlist : s.toList = t.toList := by
    rw [← intercalate_pieces sep s.toList, hpieces, intercalate_pieces]
  exact String.toList_injective hlist

theorem pieceStrings_ne_nil (sep : Char) (s : String) : pieceStrings sep s ≠ [] := by
  unfold pieceStrings
  intro h
  exact pieces_ne_nil sep s.toList (List.map_eq_nil_iff.mp h)

end Text

def Path.IsNamed (text : String) : Prop :=
  forall name, name ∈ Text.pieceStrings '/' text -> name ≠ "" ∧ name ≠ "." ∧ name ≠ ".."

namespace Provenance

theorem isNamed_of_isValid {path : String} (h : isValid path = true) : Path.IsNamed path := by
  intro segment hmem
  unfold isValid at h
  simp only [Bool.and_eq_true, List.all_eq_true, bne_iff_ne] at h
  have hsegment := h.2 segment hmem
  exact ⟨hsegment.1.1, hsegment.1.2, hsegment.2⟩

end Provenance

namespace Path

/-!
# Components
-/

theorem componentsOf_append (front back : List String) :
    componentsOf (front ++ back) = componentsOf front ++ componentsOf back :=
  List.filterMap_append

theorem componentsOf_names {names : List String}
    (h : forall name, name ∈ names -> name ≠ "" ∧ name ≠ "." ∧ name ≠ "..") :
    componentsOf names = names.map Component.normal := by
  induction names with
  | nil => rfl
  | cons name rest ih =>
      rcases h name List.mem_cons_self with ⟨hempty, hdot, hup⟩
      have hrest := ih fun other hother => h other (List.mem_cons_of_mem _ hother)
      have hidle : isIdle name = false := by simp [isIdle, hempty, hdot]
      have hbeq : (name == "..") = false := by simpa using hup
      unfold componentsOf at hrest ⊢
      rw [List.filterMap_cons_some (b := Component.normal name), hrest]
      · rfl
      · simp [hidle, hbeq]

theorem components_of_segments {p : Path} {front back : List String} (hfront : front ≠ [])
    (h : p.segments = front ++ back) :
    exists before, p.components = before ++ componentsOf back := by
  rcases front with _ | ⟨first, rest⟩
  · exact absurd rfl hfront
  · rw [List.cons_append] at h
    unfold components
    rw [h]
    split
    · next heq =>
        cases heq
        rw [componentsOf_append]
        split
        · exact ⟨.root :: componentsOf rest, rfl⟩
        · exact ⟨componentsOf rest, rfl⟩
    · next heq =>
        cases heq
        rw [componentsOf_append]
        exact ⟨.here :: componentsOf rest, rfl⟩
    · exact ⟨componentsOf (first :: rest), componentsOf_append (first :: rest) back⟩

theorem components_of_names {p : Path}
    (h : forall name, name ∈ p.segments -> name ≠ "" ∧ name ≠ "." ∧ name ≠ "..") :
    p.components = p.segments.map Component.normal := by
  unfold components
  split
  · next rest heq => exact absurd rfl (h "" (heq ▸ List.mem_cons_self)).1
  · next rest heq => exact absurd rfl (h "." (heq ▸ List.mem_cons_self)).2.1
  · exact componentsOf_names h

theorem segments_slash (front back : String) :
    (Path.mk (front ++ "/" ++ back)).segments =
      (Path.mk front).segments ++ (Path.mk back).segments := by
  have htext : (front ++ "/" ++ back).toList = front.toList ++ '/' :: back.toList := by
    simp [String.toList_append]
  unfold segments Text.pieceStrings
  dsimp only
  rw [htext, Text.pieces_append_sep, List.map_append]

theorem text_of_slash {p : Path} (h : (p.text.toList.getLast? == some '/') = true) :
    exists front, p.text = front ++ "/" := by
  have hlast : p.text.toList.getLast? = some '/' := by simpa using h
  rcases List.getLast?_eq_some_iff.mp hlast with ⟨front, hfront⟩
  refine ⟨String.ofList front, String.toList_injective ?_⟩
  rw [hfront, String.toList_append, String.toList_ofList]
  rfl

theorem components_join (base : Path) {path : String} (hnames : IsNamed path) :
    exists before, (base.join path).components =
      before ++ (Text.pieceStrings '/' path).map Component.normal := by
  have hback : componentsOf (Path.mk path).segments =
      (Text.pieceStrings '/' path).map Component.normal := componentsOf_names hnames
  have hjoined : forall front : String, exists before,
      (Path.mk (front ++ "/" ++ path)).components =
        before ++ (Text.pieceStrings '/' path).map Component.normal := by
    intro front
    rw [← hback]
    exact components_of_segments (Text.pieceStrings_ne_nil '/' front) (segments_slash front path)
  unfold join
  split
  · exact ⟨[], components_of_names hnames⟩
  · split
    · next hslash =>
        rcases text_of_slash hslash with ⟨front, hfront⟩
        rw [hfront]
        exact hjoined front
    · exact hjoined base.text

/-!
# Joining twice
-/

theorem isAbsolute_of_isNamed {path : String} (h : IsNamed path) :
    (Path.mk path).isAbsolute = false := by
  unfold isAbsolute
  cases hchars : path.toList with
  | nil => rfl
  | cons c rest =>
      by_cases hc : c = '/'
      · -- The text in front of the first slash would be empty.
        subst hc
        refine absurd rfl (h "" ?_).1
        unfold Text.pieceStrings
        rw [hchars, Text.pieces_sep_cons]
        exact List.mem_cons_self
      · simpa using hc

theorem endsInSlash_of_isNamed {path : String} (h : IsNamed path) :
    (path.toList.getLast? == some '/') = false := by
  refine eq_false_of_ne_true fun hslash => ?_
  rcases text_of_slash (p := ⟨path⟩) hslash with ⟨front, hfront⟩
  refine absurd rfl (h "" ?_).1
  have hsegments := segments_slash front ""
  rw [String.append_empty, ← hfront] at hsegments
  have hmem : "" ∈ (Path.mk path).segments := by
    rw [hsegments]
    exact List.mem_append_right _ List.mem_cons_self
  exact hmem

theorem isNamed_slash {front back : String} (hfront : IsNamed front) (hback : IsNamed back) :
    IsNamed (front ++ "/" ++ back) := by
  intro name hname
  have hsegments := segments_slash front back
  unfold segments at hsegments
  rw [hsegments] at hname
  rcases List.mem_append.mp hname with hmem | hmem
  · exact hfront name hmem
  · exact hback name hmem

theorem join_join (base : Path) {front back : String} (hfront : IsNamed front)
    (hback : IsNamed back) : (base.join front).join back = base.join (front ++ "/" ++ back) := by
  have hfrontAbs := isAbsolute_of_isNamed hfront
  have hbackAbs := isAbsolute_of_isNamed hback
  have hbothAbs := isAbsolute_of_isNamed (isNamed_slash hfront hback)
  have hne : front.toList ≠ [] := by
    intro hempty
    refine absurd rfl (hfront "" ?_).1
    unfold Text.pieceStrings
    rw [hempty]
    exact List.mem_cons_self
  have hlast : forall start : String,
      ((start ++ front).toList.getLast? == some '/') = false := by
    intro start
    rw [String.toList_append, List.getLast?_append, List.getLast?_eq_some_getLast hne,
      Option.some_or, ← List.getLast?_eq_some_getLast hne]
    exact endsInSlash_of_isNamed hfront
  have htext : forall start : String, ((start ++ front) == "") = false := by
    intro start
    rw [beq_eq_false_iff_ne]
    intro hempty
    have hchars := congrArg String.toList hempty
    rw [String.toList_append] at hchars
    exact hne (List.append_eq_nil_iff.mp hchars).2
  -- The text of the first join ends in that of the names, so a slash comes in between.
  have hsecond : forall start : String,
      (Path.mk (start ++ front)).join back = ⟨start ++ (front ++ "/" ++ back)⟩ := by
    intro start
    unfold join
    rw [hbackAbs, htext start, hlast start]
    simp only [Bool.or_self, Bool.false_eq_true, if_false]
    rw [String.append_assoc, String.append_assoc, String.append_assoc]
  unfold join at hsecond ⊢
  rw [hfrontAbs, hbothAbs]
  split
  · have := hsecond ""
    rw [String.empty_append, String.empty_append] at this
    exact this
  · split
    · exact hsecond base.text
    · rw [show base.text ++ "/" ++ front = (base.text ++ "/") ++ front from rfl]
      exact hsecond (base.text ++ "/")

end Path
end GoAtlas
