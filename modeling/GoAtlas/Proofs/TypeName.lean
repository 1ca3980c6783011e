import GoAtlas.Proofs.Index
import GoAtlas.TypeName

/-!
# Names and their written forms

A written name is cut at its last dot, so a package path may have dots of its own and a local
name may not.  Names are compared by what is written, and for local names without a dot that
is as good as comparing packages and local names.
-/

namespace GoAtlas

namespace Text

theorem cutLast?_eq_some_iff {sep : Char} {cs before after : List Char} :
    cutLast? sep cs = some (before, after) ↔ cs = before ++ sep :: after ∧ sep ∉ after := by
  constructor
  · intro h
    -- Some separator stands in the text, and the last one is where the text is cut.
    have hmem : sep ∈ cs := by
      by_contra hnot
      simp [cutLast?_eq_none hnot] at h
    obtain ⟨front, back, hcs, hback⟩ := List.eq_append_cons_of_mem (List.mem_reverse.mpr hmem)
    have hsplit : cs = back.reverse ++ sep :: front.reverse := by
      simpa using congrArg List.reverse hcs
    have hlast : sep ∉ front.reverse := by simpa using hback
    rw [hsplit, cutLast?_append _ hlast] at h
    cases h
    exact ⟨hsplit, hlast⟩
  · rintro ⟨rfl, hlast⟩
    exact cutLast?_append before hlast

theorem isBlankText_ofList (cs : List Char) :
    isBlankText (String.ofList cs) = cs.all isBlank := by
  simp [isBlankText]

end Text

namespace TypeName

/-- `text` is a package and a local name with its last dot between them, neither of them
blank. -/
structure Spells (text package name : String) : Prop where
  joined : text = package ++ "." ++ name
  last : '.' ∉ name.toList
  package_filled : Text.isBlankText package = false
  name_filled : Text.isBlankText name = false

theorem Spells.cut {text package name : String} (h : Spells text package name) :
    Text.cutLast? '.' text.toList = some (package.toList, name.toList) := by
  rw [Text.cutLast?_eq_some_iff]
  constructor
  · simp [h.joined]
  · exact h.last

/-!
# Reading
-/

theorem parse_eq_ok_iff {text : String} {n : TypeName} :
    parse text = .ok n ↔
      exists package name, Spells text package name ∧ n = declared package name := by
  constructor
  · intro h
    unfold parse at h
    split at h
    · cases h
    next before after hcut =>
      obtain ⟨hjoined, hlast⟩ := Text.cutLast?_eq_some_iff.mp hcut
      split at h
      · cases h
      next hfilled =>
        rw [Bool.not_eq_true, Bool.or_eq_false_iff] at hfilled
        cases h
        refine ⟨String.ofList before, String.ofList after, ?_, rfl⟩
        constructor
        · apply String.toList_inj.mp
          simp [hjoined]
        · simpa using hlast
        · rw [Text.isBlankText_ofList]
          exact hfilled.1
        · rw [Text.isBlankText_ofList]
          exact hfilled.2
  · rintro ⟨package, name, h, rfl⟩
    have hpackage : package.toList.all Text.isBlank = false := h.package_filled
    have hname : name.toList.all Text.isBlank = false := h.name_filled
    simp [parse, h.cut, hpackage, hname]

theorem parse_error {text : String} {e : Error} (h : parse text = .error e) :
    e = .invalidTypeName text := by
  unfold parse at h
  split at h
  · cases h
    rfl
  · split at h
    · cases h
      rfl
    · cases h

theorem full_of_parse {text : String} {n : TypeName} (h : parse text = .ok n) : n.full = text := by
  obtain ⟨package, name, hspells, rfl⟩ := parse_eq_ok_iff.mp h
  exact hspells.joined.symm

theorem read_of_notMem {text : String} (h : '.' ∉ text.toList) :
    read text = .ok (builtin text) := by
  simp [read, h]

theorem read_of_spells {text package name : String} (h : Spells text package name) :
    read text = .ok (declared package name) := by
  have hdot : '.' ∈ text.toList := by simp [h.joined]
  have hparse : parse text = .ok (declared package name) :=
    parse_eq_ok_iff.mpr ⟨package, name, h, rfl⟩
  simp [read, hdot, hparse]

/-!
# Comparing
-/

theorem beq_declared_iff {package other name name' : String} (hname : '.' ∉ name.toList)
    (hname' : '.' ∉ name'.toList) :
    (declared package name == declared other name') = true ↔ package = other ∧ name = name' := by
  constructor
  · intro h
    exact declared_eq_of_full_eq hname hname' (eq_of_beq h)
  · rintro ⟨rfl, rfl⟩
    exact beq_self_eq_true (declared package name).full

theorem full_declared_ne_builtin (package name : String) {predeclared : String}
    (h : '.' ∉ predeclared.toList) :
    (declared package name).full ≠ (builtin predeclared).full := by
  intro heq
  apply h
  rw [show predeclared = (declared package name).full from heq.symm, toList_full_declared]
  simp

/-- What the written form of a name tells. -/
structure ToldByText : Prop where
  /-- A text is read exactly if it has two parts, and as the name that has them. -/
  parses : forall text n, parse text = .ok n ↔ exists package name,
    Spells text package name ∧ n = declared package name
  refused : forall text e, parse text = .error e -> e = .invalidTypeName text
  kept : forall text n, parse text = .ok n ->
    n.full = text ∧ toString n = text ∧ parse (toString n) = .ok n
  same_iff : forall package other name name', '.' ∉ name.toList -> '.' ∉ name'.toList ->
    ((declared package name == declared other name') = true ↔ package = other ∧ name = name')
  apart : forall package name predeclared, '.' ∉ predeclared.toList ->
    (declared package name == builtin predeclared) = false ∧
      (builtin predeclared == declared package name) = false
  builtin_read : forall name, '.' ∉ name.toList ->
    read (toString (builtin name)) = .ok (builtin name)
  declared_read : forall package name, Text.isBlankText package = false ->
    Text.isBlankText name = false -> '.' ∉ name.toList ->
    read (toString (declared package name)) = .ok (declared package name)

/-- Names without a dot of their own are told by their written forms, and every name that is
read is written the way it was read. -/
theorem toldByText : ToldByText := by
  constructor
  · intro text n
    exact parse_eq_ok_iff
  · intro text e
    exact parse_error
  · intro text n h
    have hwritten : toString n = text := full_of_parse h
    rw [hwritten]
    exact ⟨full_of_parse h, rfl, h⟩
  · intro package other name name' hname hname'
    exact beq_declared_iff hname hname'
  · intro package name predeclared h
    have hne := full_declared_ne_builtin package name h
    constructor
    · show ((declared package name).full == (builtin predeclared).full) = false
      exact beq_eq_false_iff_ne.mpr hne
    · show ((builtin predeclared).full == (declared package name).full) = false
      exact beq_eq_false_iff_ne.mpr hne.symm
  · intro name h
    exact read_of_notMem h
  · intro package name hpackage hname hlast
    exact read_of_spells ⟨rfl, hlast, hpackage, hname⟩

/-- A path with dots keeps them, and the local name starts behind the last one. -/
example : (parse "gopkg.in/yaml.v3.Node").toOption.map (fun n => (n.packagePath, n.name)) =
    some ("gopkg.in/yaml.v3", "Node") := by
  decide +kernel

end TypeName
end GoAtlas
