import GoAtlas.Proofs.Source.Forward

/-!
# Readers of files go forward

Declarations and statements are made of types, expressions and blocks, whose readers go forward one
level of nesting after another.  So do the readers of all that stands at the top of a file.
-/

namespace GoAtlas
namespace Source
namespace Grammar

open Parse

variable {g : Grammar}

/-!
# Declarations
-/

theorem moves_group {α : Type} {item : Parse α} (hitem : Moves item) : Moves (group item) := by
  refine (Moves.follows false "(").bind fun found => ?_
  split
  · exact hitem.terminated ")"
  · exact hitem.bind fun _ => .pure

theorem moves_exprList (hg : g.Moving) (m : Mode) : Moves (exprList g m) :=
  (hg.expr m).commaList m.ending

theorem moves_constNames : Moves constNames := by
  refine Moves.ident.bind fun first => (Moves.many (Moves.onward ?_ true)).bind fun _ => .pure
  refine Moves.get.bind fun a => (Moves.take ",").bind fun found => ?_
  split
  · exact (Moves.since a).bind fun _ => Moves.ident.bind fun _ => .pure
  · exact .pure

theorem moves_constSpec (hg : g.Moving) : Moves (constSpec g) := by
  refine Moves.here.bind fun a => moves_constNames.bind fun names => ?_
  refine Moves.returning fun bare => Moves.atTerminator.stays.bind fun ended => ?_
  split
  · exact Stays.back.bind fun _ => ((Moves.since a).bind fun _ => Moves.pure).stays
  · have hvalues (type : Option TypeExpr) : Moves (do
        symbol "="
        let values ← exprList g Mode.line
        return ConstSpec.mk (← since a) names type (some values)) :=
      (Moves.symbol "=").bind fun _ => (moves_exprList hg Mode.line).bind fun _ =>
        (Moves.since a).bind fun _ => .pure
    refine (Moves.bind (Moves.sees "=") fun found => ?_).stays
    dsimp only
    split
    · exact Moves.pure.bind fun type => hvalues type
    · exact (hg.type false).bind fun _ => Moves.pure.bind fun type => hvalues type

theorem moves_varSpec (hg : g.Moving) : Moves (varSpec g) := by
  refine (Moves.ident.commaList false).bind fun names => ?_
  refine (Moves.follows false "=").bind fun found => ?_
  dsimp only
  split
  · exact (moves_exprList hg Mode.line).bind fun _ => .pure
  · refine (hg.type true).bind fun _ => (Moves.follows true "=").bind fun found => ?_
    split
    · exact (moves_exprList hg Mode.line).bind fun _ => .pure
    · exact .pure

theorem moves_noteTypeSpec (spec : TypeSpec) : Moves (noteTypeSpec spec) := by
  refine Moves.bind (Moves.noting ?_) fun _ => .pure
  intro c
  exact ⟨[], rfl, rfl, rfl⟩

theorem moves_declaredType (hg : g.Moving) : Moves (declaredType g) :=
  ((hg.type true).bind fun _ => Moves.pure).either
    ((moves_typeParameters hg).bind fun _ => (hg.type true).bind fun _ => .pure)

theorem moves_typeSpec (hg : g.Moving) : Moves (typeSpec g) := by
  refine Moves.here.bind fun a => Moves.ident.bind fun name => ?_
  refine (Moves.follows false "=").bind fun found => ?_
  split
  · exact (hg.type true).bind fun _ => (Moves.since a).bind fun _ => moves_noteTypeSpec _
  · exact (moves_declaredType hg).bind fun _ => (Moves.since a).bind fun _ => moves_noteTypeSpec _

theorem moves_importLabel : Moves importLabel := by
  refine Moves.onward ((Moves.take ".").bind fun found => ?_) false
  split
  · exact .pure
  · refine Moves.word.bind fun w => ?_
    split
    · exact .pure
    · exact (Moves.move 1).bind fun _ => .pure
    · exact Moves.ident.bind fun _ => .pure

theorem moves_importSpec : Moves importSpec :=
  Moves.here.bind fun a => moves_importLabel.bind fun _ => Moves.stringLiteral.bind fun _ =>
    (Moves.since a).bind fun _ => .pure

theorem moves_importDecl : Moves importDecl := by
  refine (Moves.follows false "(").bind fun found => ?_
  split
  · exact moves_importSpec.separated ")"
  · exact moves_importSpec.bind fun _ => .pure

/-!
# Statements
-/

theorem moves_followsAssign (ending : Bool) : Moves (followsAssign ending) := by
  refine Moves.bind (Moves.onward ?_ ending) fun _ => .pure
  refine (Moves.sees "=").bind fun one => (Moves.sees "==").bind fun two => ?_
  split
  · exact (Moves.move 1).bind fun _ => .pure
  · exact .pure

theorem moves_followsAny (ending : Bool) (marks : List String) :
    Moves (followsAny ending marks) := by
  induction marks with
  | nil => exact .pure
  | cons mark rest ih =>
      refine (Moves.follows ending mark).bind fun found => ?_
      split
      · exact .pure
      · exact ih

theorem moves_simpleStatement (hg : g.Moving) (m : Mode) : Moves (simpleStatement g m) := by
  have hright : Moves (do
      let _ ← exprList g (Mode.right m)
      return false) := (moves_exprList hg _).bind fun _ => .pure
  refine (moves_exprList hg m).bind fun left => (Moves.follows m.ending ":=").bind fun found => ?_
  split
  · exact hright
  · refine (moves_followsAny m.ending assignMarks).bind fun found => ?_
    split
    · exact hright
    · refine (moves_followsAssign m.ending).bind fun found => ?_
      split
      · exact hright
      · split
        · exact .fail
        · refine (moves_followsAny m.ending ["++", "--"]).bind fun found => ?_
          split
          · exact .pure
          · refine (Moves.follows m.ending "<-").bind fun found => ?_
            split
            · exact (hg.expr _).bind fun _ => .pure
            · exact .pure

theorem moves_atListEnd : Moves atListEnd := by
  refine (Moves.skip false).bind fun _ => (Moves.sees _).bind fun found => ?_
  split
  · exact .pure
  · exact Moves.word.bind fun _ => .pure

theorem moves_statementList {statement : Parse Unit} (h : Moves statement) :
    Moves (statementList statement) := by
  refine moves_atListEnd.bind fun found => ?_
  split
  · exact .pure
  · refine h.bind fun _ => (Moves.many ?_).bind fun _ => .pure
    refine Moves.bind (Moves.onward ((Moves.sees _).bind fun found => ?_) true) fun more => ?_
    · split
      · exact .pure
      · exact .pure
    · split
      · exact .pure
      · refine Moves.word.bind fun w => ?_
        split
        · exact .pure
        · refine Moves.terminator.bind fun _ => moves_atListEnd.bind fun found => ?_
          split
          · exact .pure
          · exact h.bind fun _ => .pure

theorem moves_readBlock {statement : Parse Unit} (h : Moves statement) :
    Moves (readBlock statement) := by
  refine (Moves.symbol _).bind fun _ => (Moves.skip false).bind fun _ =>
    (Moves.take _).bind fun found => ?_
  split
  · exact .pure
  · refine h.bind fun _ => (Moves.many ?_).bind fun _ => .pure
    refine (Moves.follows true _).bind fun found => ?_
    split
    · exact .pure
    · refine Moves.terminator.bind fun _ => (Moves.follows false _).bind fun found => ?_
      split
      · exact .pure
      · exact h.bind fun _ => .pure

theorem moves_ifHeader (hg : g.Moving) : Moves (ifHeader g) := by
  refine (moves_simpleStatement hg _).bind fun single => ?_
  refine (Moves.follows false ";").bind fun found => ?_
  split
  · exact (hg.expr _).bind fun _ => .pure
  · split
    · exact .fail
    · exact .pure

theorem moves_ifStatement (hg : g.Moving) (fuel : Nat) : Moves (ifStatement g fuel) := by
  induction fuel with
  | zero => exact .fail
  | succ fuel ih =>
      refine (moves_ifHeader hg).bind fun _ => hg.block.bind fun _ => ?_
      refine Moves.bind (Moves.onward (Moves.word.bind fun w => ?_) true) fun next => ?_
      · split
        · exact (Moves.move 4).bind fun _ => .pure
        · exact .pure
      · split
        · refine (Moves.skip false).bind fun _ => Moves.word.bind fun w => ?_
          split
          · exact (Moves.move 2).bind fun _ => ih
          · exact hg.block
        · exact .pure

theorem moves_forTail (hg : g.Moving) : Moves (forTail g) := by
  have hrest : Moves (do
      skipAll
      if ← sees "\x7b" then return ()
      else
        let _ ← simpleStatement g Mode.header) := by
    refine (Moves.skip false).bind fun _ => (Moves.sees _).bind fun found => ?_
    split
    · exact .pure
    · exact (moves_simpleStatement hg _).bind fun _ => .pure
  refine (Moves.follows false ";").bind fun found => ?_
  dsimp only
  split
  · exact hrest
  · exact (hg.expr _).bind fun _ => (Moves.symbol ";").bind fun _ => hrest

theorem moves_rangeTail (hg : g.Moving) : Moves (rangeTail g) :=
  (Moves.keyword "range").bind fun _ => (hg.expr _).bind fun _ => .pure

theorem moves_rangeClause (hg : g.Moving) : Moves (rangeClause g) := by
  refine (moves_exprList hg _).bind fun _ => (Moves.follows false ":=").bind fun found => ?_
  split
  · exact moves_rangeTail hg
  · refine (moves_followsAssign false).bind fun found => ?_
    split
    · exact moves_rangeTail hg
    · exact .fail

theorem moves_plainForHeader (hg : g.Moving) : Moves (plainForHeader g) := by
  refine (moves_simpleStatement hg _).bind fun single => ?_
  refine (Moves.follows false ";").bind fun found => ?_
  split
  · exact moves_forTail hg
  · split
    · exact .fail
    · exact .pure

theorem moves_forHeader (hg : g.Moving) : Moves (forHeader g) := by
  refine (Moves.skip false).bind fun _ => (Moves.sees _).bind fun found => ?_
  split
  · exact .pure
  · refine (Moves.follows false ";").bind fun found => ?_
    split
    · exact moves_forTail hg
    · refine Moves.word.bind fun w => ?_
      split
      · exact moves_rangeTail hg
      · exact (moves_rangeClause hg).either (moves_plainForHeader hg)

theorem moves_cases {label statement : Parse Unit} (hlabel : Moves label)
    (hstatement : Moves statement) : Moves (cases label statement) := by
  have hbody : Moves (do
      statementList statement
      return some ()) := (moves_statementList hstatement).bind fun _ => .pure
  refine (Moves.symbol _).bind fun _ => (Moves.many ?_).bind fun _ => .pure
  refine (Moves.follows false _).bind fun found => ?_
  split
  · exact .pure
  · refine (Moves.skip false).bind fun _ => Moves.word.bind fun w => ?_
    dsimp only
    split
    · exact (Moves.move 4).bind fun _ => hlabel.bind fun _ => (Moves.symbol ":").bind fun _ => hbody
    · exact (Moves.move 7).bind fun _ => (Moves.symbol ":").bind fun _ => hbody
    · exact Moves.fail.bind fun _ => hbody

theorem moves_switchHeader (hg : g.Moving) : Moves (switchHeader g) := by
  have hend : Moves (do
      let c ← get
      return c.typeGuard == c.offset && c.offset != 0) := Moves.get.bind fun _ => .pure
  refine (Moves.skip false).bind fun _ => (Moves.sees _).bind fun found => ?_
  split
  · exact .pure
  · refine (moves_simpleStatement hg _).bind fun _ => (Moves.follows false ";").bind fun found => ?_
    dsimp only
    split
    · refine (Moves.skip false).bind fun _ => (Moves.sees _).bind fun found => ?_
      split
      · exact (moves_simpleStatement hg _).bind fun _ => hend
      · exact hend
    · exact hend

theorem moves_switchStatement (hg : g.Moving) {statement : Parse Unit} (h : Moves statement) :
    Moves (switchStatement g statement) := by
  refine (moves_switchHeader hg).bind fun onTypes => moves_cases ?_ h
  split
  · exact ((hg.type false).commaList false).bind fun _ => .pure
  · exact (moves_exprList hg _).bind fun _ => .pure

theorem moves_communication (hg : g.Moving) : Moves (communication g) := by
  have hvalue : Moves (do let _ ← g.expr Mode.inner) := (hg.expr _).bind fun _ => .pure
  refine (moves_exprList hg _).bind fun left => (Moves.follows false ":=").bind fun found => ?_
  split
  · exact hvalue
  · refine (moves_followsAssign false).bind fun found => ?_
    split
    · exact hvalue
    · split
      · exact .fail
      · refine (Moves.follows false "<-").bind fun found => ?_
        split
        · exact hvalue
        · exact .pure

theorem moves_optionalLabel : Moves optionalLabel := by
  refine Moves.bind (Moves.onward (Moves.word.bind fun w => ?_) true) fun _ => .pure
  split
  · exact .pure
  · exact Moves.ident.bind fun _ => .pure

theorem moves_returnStatement (hg : g.Moving) : Moves (returnStatement g) := by
  refine Moves.atTerminator.bind fun done => ?_
  split
  · exact .pure
  · refine (Moves.sees _).bind fun found => ?_
    split
    · exact .pure
    · exact (moves_exprList hg _).bind fun _ => .pure

theorem moves_followsColon : Moves followsColon := by
  refine Moves.bind (Moves.onward ?_ true) fun _ => .pure
  refine (Moves.sees ":").bind fun one => (Moves.sees ":=").bind fun two => ?_
  split
  · exact (Moves.move 1).bind fun _ => .pure
  · exact .pure

theorem moves_labelled {statement : Parse Unit} (h : Moves statement) :
    Moves (labelled statement) := by
  refine Moves.ident.bind fun _ => moves_followsColon.bind fun found => ?_
  split
  · refine moves_atListEnd.bind fun found => ?_
    split
    · exact .pure
    · exact h
  · exact .fail

theorem moves_plainStatement (hg : g.Moving) {statement : Parse Unit} (h : Moves statement) :
    Moves (plainStatement g statement) :=
  (moves_labelled h).either ((moves_simpleStatement hg _).bind fun _ => .pure)

theorem moves_statement (hg : g.Moving) (fuel : Nat) : Moves (statement g fuel) := by
  induction fuel with
  | zero => exact .fail
  | succ fuel ih =>
      refine (Moves.skip false).bind fun _ => (Moves.take ";").bind fun found => ?_
      split
      · exact .pure
      · refine (Moves.sees _).bind fun found => ?_
        split
        · exact hg.block
        · refine Moves.word.bind fun w => ?_
          split
          · exact (Moves.move 5).bind fun _ =>
              (moves_group (moves_constSpec hg)).bind fun _ => .pure
          · exact (Moves.move 3).bind fun _ => (moves_group (moves_varSpec hg)).bind fun _ => .pure
          · exact (Moves.move 4).bind fun _ => (moves_group (moves_typeSpec hg)).bind fun _ => .pure
          · exact (Moves.move 6).bind fun _ => moves_returnStatement hg
          · exact (Moves.move 2).bind fun _ => (hg.expr _).bind fun _ => .pure
          · exact (Moves.move 5).bind fun _ => (hg.expr _).bind fun _ => .pure
          · exact (Moves.move 2).bind fun _ => moves_ifStatement hg fuel
          · exact (Moves.move 3).bind fun _ => (moves_forHeader hg).bind fun _ => hg.block
          · exact (Moves.move 6).bind fun _ => moves_switchStatement hg ih
          · exact (Moves.move 6).bind fun _ => moves_cases (moves_communication hg) ih
          · exact .move 11
          · exact (Moves.move 5).bind fun _ => moves_optionalLabel
          · exact (Moves.move 8).bind fun _ => moves_optionalLabel
          · exact (Moves.move 4).bind fun _ => Moves.ident.bind fun _ => .pure
          · exact moves_plainStatement hg ih

/-!
# The knot
-/

theorem moving_empty : empty.Moving :=
  ⟨fun _ => .fail, fun _ => .fail, fun _ => .fail, .fail⟩

theorem moving_next (hg : g.Moving) : g.next.Moving :=
  ⟨moves_readType hg, moves_readBareType hg, moves_readExpr hg,
    Moves.get.bind fun _ => moves_readBlock (moves_statement hg _)⟩

theorem moving_ofDepth (depth : Nat) : (ofDepth depth).Moving := by
  induction depth with
  | zero => exact moving_empty
  | succ depth ih => exact moving_next ih

/-!
# Files
-/

theorem moves_optionalBody (hg : g.Moving) : Moves (optionalBody g) := by
  refine Moves.bind (Moves.onward ((Moves.sees _).bind fun found => ?_) true) fun _ => .pure
  split
  · exact hg.block.bind fun _ => .pure
  · exact .pure

theorem moves_funcDecl (hg : g.Moving) : Moves (funcDecl g) := by
  refine (Moves.keyword "func").bind fun _ => Moves.ident.bind fun name => ?_
  refine Moves.bind (Moves.onward ((Moves.sees "[").bind fun found => ?_) false) fun _ => ?_
  · split
    · exact (moves_typeParameters hg).bind fun _ => .pure
    · exact .pure
  · exact (moves_parameters hg).bind fun _ => (moves_results hg true).bind fun _ =>
      (moves_optionalBody hg).bind fun _ => .pure

theorem moves_methodDecl (hg : g.Moving) : Moves (methodDecl g) :=
  Moves.here.bind fun a => (Moves.keyword "func").bind fun _ => (moves_parameters hg).bind fun _ =>
    Moves.ident.bind fun _ => (moves_parameters hg).bind fun _ =>
      (moves_results hg true).bind fun _ => (moves_optionalBody hg).bind fun _ =>
        (Moves.since a).bind fun _ => .pure

theorem moves_packageClause : Moves packageClause :=
  Moves.here.bind fun a => (Moves.keyword "package").bind fun _ => Moves.ident.bind fun _ =>
    (Moves.since a).bind fun _ => .pure

theorem moves_otherStatement (hg : g.Moving) : Moves (otherStatement g) :=
  Moves.get.bind fun _ => (moves_statement hg _).bind fun _ => .pure

theorem moves_topLevel (hg : g.Moving) : Moves (topLevel g) := by
  refine Moves.word.bind fun w => ?_
  split
  · exact moves_packageClause
  · exact (Moves.move 6).bind fun _ => moves_importDecl.bind fun _ => .pure
  · exact (moves_funcDecl hg).either ((moves_methodDecl hg).either (moves_otherStatement hg))
  · exact (Moves.move 5).bind fun _ => (moves_group (moves_constSpec hg)).bind fun _ => .pure
  · exact (Moves.move 4).bind fun _ => (moves_group (moves_typeSpec hg)).bind fun _ => .pure
  · exact (Moves.move 3).bind fun _ => (moves_group (moves_varSpec hg)).bind fun _ => .pure
  · exact moves_otherStatement hg

end Grammar
end Source
end GoAtlas
