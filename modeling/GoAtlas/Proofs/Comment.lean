import GoAtlas.Comment
import GoAtlas.Proofs.Ancestors
import Mathlib.Data.List.Chain
import Mathlib.Data.List.DropRight

/-!
# The text of comments

The text of comment lines is arranged: no blank line stands at its beginning, at its end or below
another one, and no line ends in a blank.  Written as comments again its lines are no directives,
and since there is nothing left to arrange, their text is the same.
-/

namespace GoAtlas

namespace Text

theorem trimEnd_eq_rdropWhile (cs : List Char) : trimEnd cs = cs.rdropWhile isBlank := rfl

theorem trimEnd_eq_self_iff {cs : List Char} :
    trimEnd cs = cs ↔ forall c, cs.getLast? = some c -> isBlank c = false := by
  rw [trimEnd_eq_rdropWhile, List.rdropWhile_eq_self_iff]
  constructor
  · intro h c hc
    obtain ⟨hne, rfl⟩ := List.mem_getLast?_eq_getLast hc
    exact Bool.eq_false_iff.mpr (h hne)
  · intro h hne
    exact Bool.eq_false_iff.mp (h _ (List.getLast?_eq_some_getLast hne))

theorem trimEnd_trimEnd (cs : List Char) : trimEnd (trimEnd cs) = trimEnd cs :=
  List.rdropWhile_idempotent isBlank cs

theorem mem_of_mem_trimEnd {c : Char} {cs : List Char} (h : c ∈ trimEnd cs) : c ∈ cs :=
  (List.rdropWhile_prefix isBlank cs).subset h

end Text

namespace Comment

/-!
# Arranged lines
-/

def Apart (above below : Line) : Prop := above ≠ [] ∨ below ≠ []

structure Arranged (lines : List Line) : Prop where
  first : lines.head? ≠ some []
  last : lines.getLast? ≠ some []
  single : lines.IsChain Apart
  trimmed : forall line, line ∈ lines -> Text.trimEnd line = line

theorem sublist_squeeze (afterLine : Bool) (lines : List Line) :
    (squeeze afterLine lines).Sublist lines := by
  induction lines generalizing afterLine with
  | nil => exact List.Sublist.refl _
  | cons line rest ih =>
      unfold squeeze
      split
      · split
        · exact (ih false).cons_cons line
        · exact (ih false).cons line
      · exact (ih true).cons_cons line

theorem head?_squeeze (lines : List Line) : (squeeze false lines).head? ≠ some [] := by
  induction lines with
  | nil => exact nofun
  | cons line rest ih =>
      unfold squeeze
      split
      · exact ih
      · next hline =>
          intro h
          cases h
          exact hline rfl

theorem isChain_squeeze (afterLine : Bool) (lines : List Line) :
    (squeeze afterLine lines).IsChain Apart := by
  induction lines generalizing afterLine with
  | nil => exact .nil
  | cons line rest ih =>
      unfold squeeze
      split
      · split
        · refine List.isChain_cons.mpr ⟨fun below hbelow => Or.inr ?_, ih false⟩
          rintro rfl
          exact head?_squeeze rest hbelow
        · exact ih false
      · next hline =>
          refine List.isChain_cons.mpr ⟨fun _ _ => Or.inl ?_, ih true⟩
          rintro rfl
          exact hline rfl

theorem squeeze_eq_self {afterLine : Bool} {lines : List Line} (hsingle : lines.IsChain Apart)
    (hfirst : afterLine = false -> lines.head? ≠ some []) : squeeze afterLine lines = lines := by
  induction lines generalizing afterLine with
  | nil => rfl
  | cons line rest ih =>
      obtain ⟨hbelow, hrest⟩ := List.isChain_cons.mp hsingle
      unfold squeeze
      split
      · next hline =>
          cases List.isEmpty_iff.mp hline
          split
          · refine congrArg _ (ih hrest fun _ hhead => ?_)
            exact (hbelow [] hhead).elim (fun h => h rfl) fun h => h rfl
          · next hafter => exact absurd rfl (hfirst (Bool.eq_false_iff.mpr hafter))
      · exact congrArg _ (ih hrest nofun)

theorem dropBlankEnd_eq_rdropWhile (lines : List Line) :
    dropBlankEnd lines = lines.rdropWhile List.isEmpty := rfl

theorem dropBlankEnd_eq_self {lines : List Line} (h : lines.getLast? ≠ some []) :
    dropBlankEnd lines = lines := by
  rw [dropBlankEnd_eq_rdropWhile, List.rdropWhile_eq_self_iff]
  intro hne hblank
  refine h ?_
  rw [List.getLast?_eq_some_getLast hne, List.isEmpty_iff.mp hblank]

theorem getLast?_dropBlankEnd (lines : List Line) : (dropBlankEnd lines).getLast? ≠ some [] := by
  intro h
  obtain ⟨hne, hlast⟩ := List.mem_getLast?_eq_getLast h
  refine List.rdropWhile_last_not List.isEmpty lines hne ?_
  exact List.isEmpty_iff.mpr hlast.symm

def arrange (lines : List Line) : List Line := dropBlankEnd (squeeze false lines)

theorem arrange_eq_self {lines : List Line} (h : Arranged lines) : arrange lines = lines := by
  unfold arrange
  rw [squeeze_eq_self h.single fun _ => h.first, dropBlankEnd_eq_self h.last]

theorem mem_of_mem_arrange {line : Line} {lines : List Line} (h : line ∈ arrange lines) :
    line ∈ lines :=
  (sublist_squeeze false lines).subset ((List.rdropWhile_prefix _ _).subset h)

theorem arranged_arrange {lines : List Line}
    (h : forall line, line ∈ lines -> Text.trimEnd line = line) : Arranged (arrange lines) where
  first := by
    intro hfirst
    -- The first line is still there after the cut at the end.
    obtain ⟨rest, hrest⟩ := List.rdropWhile_prefix List.isEmpty (squeeze false lines)
    refine head?_squeeze lines ?_
    rw [← hrest]
    exact List.mem_head?_append_of_mem_head? hfirst
  last := getLast?_dropBlankEnd _
  single := by
    obtain ⟨rest, hrest⟩ := List.rdropWhile_prefix List.isEmpty (squeeze false lines)
    have hchain := isChain_squeeze false lines
    rw [← hrest] at hchain
    exact hchain.left_of_append
  trimmed line hline := h line (mem_of_mem_arrange hline)

/-!
# Contents of comment lines
-/

theorem trimEnd_content (body : Line) : Text.trimEnd (content body) = content body := by
  unfold content
  split
  · exact Text.trimEnd_trimEnd _
  · exact Text.trimEnd_trimEnd _

theorem mem_of_mem_content {c : Char} {body : Line} (h : c ∈ content body) : c ∈ body := by
  unfold content at h
  split at h
  · exact List.mem_cons_of_mem _ (Text.mem_of_mem_trimEnd h)
  · exact Text.mem_of_mem_trimEnd h

theorem mem_of_mem_body {c : Char} {line : Line} (h : c ∈ body line) : c ∈ line := by
  unfold body at h
  split at h
  · exact List.mem_of_mem_drop h
  · exact h

theorem trimEnd_of_mem_contents {lines : List Line} {line : Line} (h : line ∈ contents lines) :
    Text.trimEnd line = line := by
  obtain ⟨b, _, rfl⟩ := List.mem_map.mp h
  exact trimEnd_content b

theorem newline_notMem_of_mem_contents {lines : List Line}
    (h : forall line, line ∈ lines -> '\n' ∉ line) {line : Line} (hline : line ∈ contents lines) :
    '\n' ∉ line := by
  obtain ⟨b, hb, rfl⟩ := List.mem_map.mp hline
  obtain ⟨written, hwritten, rfl⟩ := List.mem_map.mp (List.mem_of_mem_filter hb)
  exact fun hmem => h written hwritten (mem_of_mem_body (mem_of_mem_content hmem))

def comment (line : Line) : Line := mark ++ ' ' :: line

theorem isDirective_comment (line : Line) : isDirective (body (comment line)) = false := rfl

theorem contents_comment {lines : List Line}
    (h : forall line, line ∈ lines -> Text.trimEnd line = line) :
    contents (lines.map comment) = lines := by
  have hkept : ((lines.map comment).map body).filter (fun b => !isDirective b) =
      (lines.map comment).map body := by
    refine List.filter_eq_self.mpr fun b hb => ?_
    obtain ⟨written, hwritten, rfl⟩ := List.mem_map.mp hb
    obtain ⟨line, _, rfl⟩ := List.mem_map.mp hwritten
    rw [isDirective_comment]
    rfl
  unfold contents
  rw [hkept, List.map_map, List.map_map]
  exact (List.map_congr_left h).trans (List.map_id' lines)

/-!
# Lines of a text
-/

def linesOf (text : String) : List Line := (Text.pieces '\n' text.toList).dropLast

def joined (lines : List Line) : String :=
  String.join (lines.map fun line => String.ofList line ++ "\n")

theorem text_eq_joined (lines : List Line) : text lines = joined (arrange (contents lines)) := rfl

theorem toList_joined (lines : List Line) :
    (joined lines).toList = lines.flatMap fun line => line ++ ['\n'] := by
  unfold joined
  rw [String.toList_join, List.flatMap_map]
  simp

theorem pieces_joined {lines : List Line} (h : forall line, line ∈ lines -> '\n' ∉ line) :
    Text.pieces '\n' (joined lines).toList = lines ++ [[]] := by
  rw [toList_joined]
  induction lines with
  | nil => rfl
  | cons line rest ih =>
      obtain ⟨hline, hrest⟩ := List.forall_mem_cons.mp h
      rw [List.flatMap_cons, List.append_assoc, List.singleton_append, Text.pieces_append_sep,
        Text.pieces_of_notMem hline, ih hrest]
      rfl

theorem linesOf_joined {lines : List Line} (h : forall line, line ∈ lines -> '\n' ∉ line) :
    linesOf (joined lines) = lines := by
  unfold linesOf
  rw [pieces_joined h, List.dropLast_concat]

/-!
# Text and its comments
-/

def IsBlank (line : Line) : Prop := forall c, c ∈ line -> Text.isBlank c = true

theorem eq_nil_of_isBlank {line : Line} (htrimmed : Text.trimEnd line = line)
    (h : IsBlank line) : line = [] := by
  rw [← htrimmed, Text.trimEnd_eq_rdropWhile]
  exact List.rdropWhile_eq_nil_iff.mpr h

structure Tidy (text : String) : Prop where
  ended : text = "" ∨ exists front, text = front ++ "\n"
  first : forall line, (linesOf text).head? = some line -> ¬ IsBlank line
  last : forall line, (linesOf text).getLast? = some line -> ¬ IsBlank line
  single : (linesOf text).IsChain fun above below => ¬ (IsBlank above ∧ IsBlank below)
  trimmed : forall line, line ∈ linesOf text ->
    forall c, line.getLast? = some c -> Text.isBlank c = false

theorem joined_eq_nil_or_ended (lines : List Line) :
    joined lines = "" ∨ exists front, joined lines = front ++ "\n" := by
  rcases List.eq_nil_or_concat lines with rfl | ⟨front, line, rfl⟩
  · exact Or.inl rfl
  · refine Or.inr ⟨joined front ++ String.ofList line, ?_⟩
    apply String.toList_injective
    simp [toList_joined]

theorem tidy_joined {lines : List Line} (h : Arranged lines)
    (hplain : forall line, line ∈ lines -> '\n' ∉ line) : Tidy (joined lines) := by
  have hblank : forall line, line ∈ lines -> IsBlank line -> line = [] :=
    fun line hline => eq_nil_of_isBlank (h.trimmed line hline)
  have hlines := linesOf_joined hplain
  constructor
  · exact joined_eq_nil_or_ended lines
  · rw [hlines]
    intro line hfirst hempty
    exact h.first (hblank line (List.mem_of_head? hfirst) hempty ▸ hfirst)
  · rw [hlines]
    intro line hlast hempty
    exact h.last (hblank line (List.mem_of_getLast? hlast) hempty ▸ hlast)
  · rw [hlines]
    refine h.single.imp_of_mem_imp ?_
    rintro above below habove hbelow hapart ⟨hblankAbove, hblankBelow⟩
    rcases hapart with hne | hne
    · exact hne (hblank above habove hblankAbove)
    · exact hne (hblank below hbelow hblankBelow)
  · rw [hlines]
    exact fun line hline => Text.trimEnd_eq_self_iff.mp (h.trimmed line hline)

/-- The text is tidy, and as a comment it has itself as its text. -/
structure Lasts (s : String) : Prop where
  tidy : Tidy s
  plain : forall line, line ∈ (linesOf s).map comment -> isDirective (body line) = false
  again : text ((linesOf s).map comment) = s

/-- Whatever the lines of a comment are, their text lasts. -/
theorem lasts_text {lines : List Line} (h : forall line, line ∈ lines -> '\n' ∉ line) :
    Lasts (text lines) := by
  have hplain : forall line, line ∈ arrange (contents lines) -> '\n' ∉ line :=
    fun line hline => newline_notMem_of_mem_contents h (mem_of_mem_arrange hline)
  have harranged : Arranged (arrange (contents lines)) :=
    arranged_arrange fun line => trimEnd_of_mem_contents
  rw [text_eq_joined]
  constructor
  · exact tidy_joined harranged hplain
  · intro line hline
    obtain ⟨written, _, rfl⟩ := List.mem_map.mp hline
    exact isDirective_comment written
  · rw [linesOf_joined hplain, text_eq_joined, contents_comment harranged.trimmed,
      arrange_eq_self harranged]

/-- Directives, blank lines around them, and a line that looks like a directive once its mark is
gone. -/
def mixedLines : List Line :=
  ["//", "// Real doc ", "//", "//go:generate x", "// \t", "// go:embed y", "//"].map String.toList

theorem lasts_text_mixedLines :
    (forall line, line ∈ mixedLines -> '\n' ∉ line) ∧
      text mixedLines = "Real doc\n\ngo:embed y\n" ∧ Lasts (text mixedLines) := by
  have hplain : forall line, line ∈ mixedLines -> '\n' ∉ line := by decide
  exact ⟨hplain, by decide +kernel, lasts_text hplain⟩

end Comment
end GoAtlas
