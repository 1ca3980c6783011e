import GoAtlas.Proofs.Source.Places
import GoAtlas.Source.File

/-!
# Readers go forward

Every reader of the grammar moves the cursor forward, whatever it reads.  Types, expressions and
blocks contain one another, so their readers are taken to go forward where they read parts of
others.
-/

namespace GoAtlas
namespace Source
namespace Grammar

open Parse

/-- The readers that the others take for the parts inside what they read go forward. -/
structure Moving (g : Grammar) : Prop where
  type (ending : Bool) : Moves (g.type ending)
  bareType (ending : Bool) : Moves (g.bareType ending)
  expr (m : Mode) : Moves (g.expr m)
  block : Moves g.block

variable {g : Grammar}

/-!
# Types
-/

theorem moves_variadicEntry (hg : g.Moving) : Moves (variadicEntry g) := by
  refine (Moves.follows false "...").bind fun found => ?_
  split
  · exact (hg.type false).bind fun _ => .pure
  · exact Moves.ident.bind fun _ => (Moves.symbol "...").bind fun _ =>
      (hg.type false).bind fun _ => .pure

theorem moves_typedEntry (hg : g.Moving) : Moves (typedEntry g) := by
  refine Moves.ident.bind fun name => ?_
  split
  · exact .fail
  · exact (hg.type false).bind fun _ => .pure

theorem moves_entry (hg : g.Moving) : Moves (entry g) :=
  (moves_variadicEntry hg).either
    ((moves_typedEntry hg).either ((hg.type false).bind fun _ => .pure))

theorem moves_parameters (hg : g.Moving) : Moves (parameters g) :=
  (Moves.symbol "(").bind fun _ => ((moves_entry hg).commaListTo ")").bind fun _ => .pure

theorem moves_startsType : Moves startsType := by
  refine Moves.word.bind fun w => ?_
  split
  · exact .pure
  · refine (Moves.ahead 2).bind fun cs => ?_
    split
    · exact .pure
    · exact .pure
    · exact .pure

theorem moves_results (hg : g.Moving) (ending : Bool) : Moves (results g ending) := by
  refine Moves.bind (Moves.onward ?_ ending) fun _ => .pure
  refine (Moves.sees "(").bind fun found => ?_
  split
  · exact (moves_parameters hg).bind fun _ => .pure
  · refine moves_startsType.bind fun found => ?_
    split
    · exact (hg.bareType ending).bind fun _ => .pure
    · exact .pure

theorem moves_followsDot (ending : Bool) : Moves (followsDot ending) := by
  refine Moves.bind (Moves.onward ?_ ending) fun _ => .pure
  refine (Moves.sees ".").bind fun one => (Moves.sees "..").bind fun two => ?_
  split
  · exact (Moves.move 1).bind fun _ => .pure
  · exact .pure

theorem moves_union (hg : g.Moving) (ending : Bool) : Moves (union g ending) := by
  refine (hg.type ending).bind fun _ => (Moves.many ?_).bind fun _ => .pure
  refine (Moves.follows ending "|").bind fun found => ?_
  split
  · exact (hg.type ending).bind fun _ => .pure
  · exact .pure

theorem moves_typeArguments (hg : g.Moving) : Moves (typeArguments g) :=
  (Moves.symbol "[").bind fun _ => (moves_union hg false).bind fun _ =>
    (Moves.many ((moves_union hg false).moreTo "]")).bind fun _ => .pure

theorem moves_typeName (ending : Bool) : Moves (typeName ending) := by
  refine Moves.here.bind fun a => Moves.ident.bind fun x => ?_
  refine (moves_followsDot ending).bind fun found => ?_
  split
  · exact Moves.ident.bind fun _ => (Moves.noteQualifier x).bind fun _ =>
      (Moves.since a).bind fun _ => .pure
  · exact .pure

theorem moves_namedType (hg : g.Moving) (ending : Bool) : Moves (namedType g ending) := by
  refine Moves.here.bind fun a => (moves_typeName ending).bind fun base => ?_
  refine Moves.bind (Moves.onward ?_ ending) fun arguments => ?_
  · refine (Moves.sees "[").bind fun found => ?_
    split
    · exact (moves_typeArguments hg).attempt
    · exact .pure
  · split
    · exact (Moves.since a).bind fun _ => .pure
    · exact .pure

theorem moves_optionalTag : Moves optionalTag := by
  refine Moves.onward (Moves.char?.bind fun c => ?_) true
  split
  · split
    · exact Moves.stringLiteral.bind fun _ => .pure
    · exact .pure
  · exact .pure

theorem moves_namedField (hg : g.Moving) : Moves (namedField g) := by
  have hrest (a : Cursor) (names : List Extent) : Moves (do
      let type ← g.type true
      let tag ← optionalTag
      return FieldDecl.named (← since a) names type tag) :=
    (hg.type true).bind fun _ => moves_optionalTag.bind fun _ =>
      (Moves.since a).bind fun _ => .pure
  refine Moves.here.bind fun a => (Moves.ident.commaList true).bind fun names => ?_
  refine Moves.atTerminator.bind fun ended => ?_
  dsimp only
  split
  · exact Moves.fail.bind fun _ => hrest a names
  · exact hrest a names

theorem moves_embeddedField (hg : g.Moving) : Moves (embeddedField g) :=
  Moves.here.bind fun a => (Moves.take "*").bind fun _ => (moves_namedType hg true).bind fun _ =>
    moves_optionalTag.bind fun _ => (Moves.since a).bind fun _ => .pure

theorem moves_seesField : Moves seesField :=
  Moves.returning fun _ => (Moves.skip false).stays.bind fun _ =>
    (Moves.take "*").stays.bind fun _ => (Moves.skip false).stays.bind fun _ =>
      Moves.word.stays.bind fun _ => Stays.back.bind fun _ => Moves.pure.stays

theorem moves_genericField (hg : g.Moving) : Moves (genericField g) := by
  refine (moves_embeddedField hg).bind fun field => (Moves.skip true).bind fun _ => ?_
  refine Moves.char?.bind fun c => ?_
  split
  · refine moves_seesField.bind fun found => ?_
    split
    · exact .pure
    · exact .fail
  · exact .fail

theorem moves_fieldDecl (hg : g.Moving) : Moves (fieldDecl g) :=
  (moves_genericField hg).either ((moves_namedField hg).either (moves_embeddedField hg))

theorem moves_structType (hg : g.Moving) (a : Cursor) : Moves (structType g a) :=
  (Moves.symbol _).bind fun _ => ((moves_fieldDecl hg).separated _).bind fun _ =>
    (Moves.since a).bind fun _ => .pure

theorem moves_methodElem (hg : g.Moving) : Moves (methodElem g) := by
  have hrest (a : Cursor) (name : Extent) : Moves (do
      let params ← parameters g
      let results ← results g true
      return InterfaceElem.method (← since a) name params results) :=
    (moves_parameters hg).bind fun _ => (moves_results hg true).bind fun _ =>
      (Moves.since a).bind fun _ => .pure
  refine Moves.here.bind fun a => Moves.ident.bind fun name => (Moves.skip true).bind fun _ => ?_
  refine (Moves.sees "(").bind fun opened => ?_
  dsimp only
  split
  · exact Moves.fail.bind fun _ => hrest a name
  · exact hrest a name

theorem moves_interfaceType (hg : g.Moving) (a : Cursor) : Moves (interfaceType g a) := by
  have hunion : Moves (unionElem g) := (moves_union hg true).bind fun _ => .pure
  exact (Moves.symbol _).bind fun _ =>
    (((moves_methodElem hg).either hunion).separated _).bind fun _ =>
      (Moves.since a).bind fun _ => .pure

theorem moves_chanTail (hg : g.Moving) (ending : Bool) (fuel : Nat) :
    Moves (chanTail g ending fuel) := by
  induction fuel with
  | zero => exact .fail
  | succ fuel ih =>
      refine Moves.here.bind fun arrow => (Moves.take "<-").bind fun found => ?_
      split
      · refine Moves.here.bind fun b => Moves.word.bind fun w => ?_
        split
        · refine (Moves.move 4).bind fun _ => ih.bind ?_
          rintro ⟨elem, ownArrow⟩
          dsimp only
          split
          · exact (Moves.since b).bind fun _ => .pure
          · exact (Moves.since arrow).bind fun _ => .pure
        · exact (hg.type ending).bind fun _ => .pure
      · exact (hg.type ending).bind fun _ => .pure

theorem moves_chanType (hg : g.Moving) (ending : Bool) (a : Cursor) :
    Moves (chanType g ending a) :=
  Moves.get.bind fun c => (moves_chanTail hg ending (c.rest.length + 1)).bind fun _ =>
    (Moves.since a).bind fun _ => .pure

theorem moves_recvChanType (hg : g.Moving) (ending : Bool) (a : Cursor) :
    Moves (recvChanType g ending a) :=
  (Moves.keyword "chan").bind fun _ => (hg.type ending).bind fun _ =>
    (Moves.since a).bind fun _ => .pure

theorem moves_mapType (hg : g.Moving) (ending : Bool) (a : Cursor) : Moves (mapType g ending a) :=
  (Moves.symbol "[").bind fun _ => (hg.type false).bind fun _ => (Moves.symbol "]").bind fun _ =>
    (hg.type ending).bind fun _ => (Moves.since a).bind fun _ => .pure

theorem moves_funcType (hg : g.Moving) (ending : Bool) (a : Cursor) :
    Moves (funcType g ending a) :=
  (moves_parameters hg).bind fun _ => (moves_results hg ending).bind fun _ =>
    (Moves.since a).bind fun _ => .pure

theorem moves_bracketType (hg : g.Moving) (ending : Bool) (a : Cursor) :
    Moves (bracketType g ending a) := by
  refine (Moves.follows false "]").bind fun closed => ?_
  split
  · exact (hg.type ending).bind fun _ => (Moves.since a).bind fun _ => .pure
  · exact (hg.expr Mode.inner).bind fun _ => (Moves.symbol "]").bind fun _ =>
      (hg.type ending).bind fun _ => (Moves.since a).bind fun _ => .pure

theorem moves_readBareType (hg : g.Moving) (ending : Bool) : Moves (readBareType g ending) := by
  refine Moves.here.bind fun a => (Moves.take "*").bind fun star => ?_
  split
  · exact (hg.type ending).bind fun _ => (Moves.since a).bind fun _ => .pure
  · refine (Moves.take "[").bind fun bracket => ?_
    split
    · exact moves_bracketType hg ending a
    · refine (Moves.take "~").bind fun tilde => ?_
      split
      · exact (hg.type ending).bind fun _ => (Moves.since a).bind fun _ => .pure
      · refine (Moves.take "<-").bind fun arrow => ?_
        split
        · exact moves_recvChanType hg ending a
        · refine Moves.word.bind fun w => ?_
          split
          · exact (Moves.move 6).bind fun _ => moves_structType hg a
          · exact (Moves.move 9).bind fun _ => moves_interfaceType hg a
          · exact (Moves.move 3).bind fun _ => moves_mapType hg ending a
          · exact (Moves.move 4).bind fun _ => moves_chanType hg ending a
          · exact (Moves.move 4).bind fun _ => moves_funcType hg ending a
          · exact moves_namedType hg ending

theorem moves_readType (hg : g.Moving) (ending : Bool) : Moves (readType g ending) := by
  refine Moves.here.bind fun a => (Moves.take "(").bind fun opened => ?_
  split
  · exact (hg.type false).bind fun _ => (Moves.symbol ")").bind fun _ =>
      (Moves.since a).bind fun _ => .pure
  · exact hg.bareType ending

theorem moves_typeParameter (hg : g.Moving) : Moves (typeParameter g) :=
  (Moves.ident.commaList false).bind fun _ => (moves_union hg false).bind fun _ => .pure

theorem moves_typeParameters (hg : g.Moving) : Moves (typeParameters g) :=
  (Moves.symbol "[").bind fun _ => (moves_typeParameter hg).bind fun _ =>
    (Moves.many ((moves_typeParameter hg).moreTo "]")).bind fun _ => .pure

/-!
# Expressions
-/

theorem moves_literalElement (hg : g.Moving) {value : Parse Unit} (hvalue : Moves value) :
    Moves (literalElement g value) := by
  refine (Moves.skip false).bind fun _ => (Moves.sees _).bind fun found => ?_
  split
  · exact hvalue
  · exact (hg.expr Mode.inner).bind fun _ => .pure

theorem moves_keyedElement (hg : g.Moving) {value : Parse Unit} (hvalue : Moves value) :
    Moves (keyedElement g value) := by
  refine (moves_literalElement hg hvalue).bind fun _ => ?_
  refine (Moves.follows false ":").bind fun found => ?_
  split
  · exact moves_literalElement hg hvalue
  · exact .pure

theorem moves_literalValue (hg : g.Moving) (fuel : Nat) : Moves (literalValue g fuel) := by
  induction fuel with
  | zero => exact .fail
  | succ fuel ih =>
      exact (Moves.symbol _).bind fun _ =>
        ((moves_keyedElement hg ih).commaListTo _).bind fun _ => .pure

theorem moves_compositeBody (hg : g.Moving) : Moves (compositeBody g) :=
  Moves.get.bind fun _ => moves_literalValue hg _

theorem moves_argument (hg : g.Moving) : Moves (argument g) := by
  refine Moves.here.bind fun a => (hg.expr Mode.inner).bind fun e => ?_
  refine (Moves.follows false "...").bind fun found => ?_
  split
  · exact (Moves.since a).bind fun _ => .pure
  · exact .pure

theorem moves_arguments (hg : g.Moving) : Moves (arguments g) := by
  refine (Moves.symbol "(").bind fun _ => (Moves.follows false ")").bind fun found => ?_
  split
  · exact .pure
  · exact (moves_argument hg).bind fun _ =>
      (Moves.many ((moves_argument hg).moreTo ")")).bind fun _ => .pure

theorem moves_typeFirstArguments (hg : g.Moving) : Moves (typeFirstArguments g) := by
  refine (Moves.symbol "(").bind fun _ => (Moves.follows false ")").bind fun found => ?_
  split
  · exact .pure
  · exact (hg.type false).bind fun _ =>
      (Moves.many ((hg.expr Mode.inner).moreTo ")")).bind fun _ => .pure

theorem moves_conversionOperand (hg : g.Moving) : Moves (conversionOperand g) :=
  (Moves.symbol "(").bind fun _ => (hg.expr Mode.inner).bind fun _ =>
    (Moves.follows false ",").bind fun _ => (Moves.symbol ")").bind fun _ => .pure

theorem moves_afterType (hg : g.Moving) (m : Mode) (a : Cursor) (type : TypeExpr)
    (composite : Bool) : Moves (afterType g m a type composite) := by
  refine (Moves.skip m.ending).bind fun _ => (Moves.sees _).bind fun found => ?_
  split
  · exact (moves_compositeBody hg).bind fun _ => (Moves.since a).bind fun _ => .pure
  · refine (Moves.sees "(").bind fun found => ?_
    split
    · exact (moves_conversionOperand hg).bind fun _ => (Moves.since a).bind fun _ => .pure
    · refine (Moves.sees "[").bind fun found => ?_
      split
      · exact (moves_typeArguments hg).bind fun _ => (Moves.since a).bind fun _ => .pure
      · exact .fail

theorem moves_countedArray (hg : g.Moving) (m : Mode) (a : Cursor) :
    Moves (countedArray g m a) :=
  (Moves.symbol "[").bind fun _ => (Moves.symbol "...").bind fun _ =>
    (Moves.symbol "]").bind fun _ => (hg.type m.ending).bind fun _ =>
      (Moves.skip m.ending).bind fun _ => (moves_compositeBody hg).bind fun _ =>
        (Moves.since a).bind fun _ => .pure

theorem moves_typeOperand (hg : g.Moving) (m : Mode) (a : Cursor) (composite : Bool) :
    Moves (typeOperand g m a composite) :=
  (hg.bareType m.ending).bind fun type => moves_afterType hg m a type composite

theorem moves_funcOperand (hg : g.Moving) (m : Mode) (a : Cursor) : Moves (funcOperand g m a) := by
  refine (hg.bareType m.ending).bind fun type => (Moves.skip m.ending).bind fun _ => ?_
  refine (Moves.sees _).bind fun found => ?_
  split
  · exact hg.block.bind fun _ => (Moves.since a).bind fun _ => .pure
  · exact moves_afterType hg m a type false

theorem moves_parenOperand (hg : g.Moving) (m : Mode) (a : Cursor) :
    Moves (parenOperand g m a) := by
  refine Moves.either ?_ ?_
  · exact (Moves.symbol "(").bind fun _ => (hg.expr Mode.inner).bind fun _ =>
      (Moves.symbol ")").bind fun _ => (Moves.since a).bind fun _ => .pure
  · exact (hg.type m.ending).bind fun type => moves_afterType hg m a type false

theorem moves_builderOperand (hg : g.Moving) (m : Mode) (a : Cursor) :
    Moves (builderOperand g m a) := by
  refine Moves.ident.bind fun x => Moves.bind (Moves.onward ?_ m.ending) fun call => ?_
  · refine (Moves.sees "(").bind fun found => ?_
    split
    · exact (moves_typeFirstArguments hg).bind fun _ => .pure
    · exact .pure
  · split
    · exact (Moves.since a).bind fun _ => .pure
    · exact .pure

theorem moves_wordOperand (hg : g.Moving) (m : Mode) (a : Cursor) : Moves (wordOperand g m a) := by
  refine Moves.word.bind fun w => ?_
  split
  · exact .fail
  · exact moves_funcOperand hg m a
  · exact moves_typeOperand hg m a true
  · exact moves_typeOperand hg m a true
  · exact moves_typeOperand hg m a false
  · exact moves_typeOperand hg m a false
  · exact moves_builderOperand hg m a
  · exact moves_builderOperand hg m a
  · exact Moves.ident.bind fun _ => .pure
  · exact Moves.ident.bind fun _ => .pure
  · exact Moves.ident.bind fun _ => .pure
  · exact Moves.ident.bind fun _ => .pure
  · exact Moves.ident.bind fun _ => .pure

theorem moves_operand (hg : g.Moving) (m : Mode) : Moves (operand g m) := by
  refine Moves.here.bind fun a => (Moves.ahead 2).bind fun cs => ?_
  split
  · exact .fail
  · split
    · exact .number
    · split
      · exact .number
      · split
        · exact Moves.stringLiteral.bind fun _ => .pure
        · split
          · exact .rune
          · split
            · exact moves_parenOperand hg m a
            · split
              · exact (moves_typeOperand hg m a true).either (moves_countedArray hg m a)
              · exact moves_wordOperand hg m a

theorem moves_selectorTail (hg : g.Moving) (m : Mode) (a : Cursor) (e : Expr) :
    Moves (selectorTail g m a e) := by
  refine (Moves.follows false "(").bind fun found => ?_
  split
  · refine Moves.bind (Moves.onward ?_ false) fun guarded => ?_
    · refine Moves.word.bind fun w => ?_
      split
      · exact (Moves.move 4).bind fun _ => (Moves.symbol ")").bind fun _ => .pure
      · exact .pure
    · split
      · refine Moves.bind (Moves.noting ?_) fun _ => (Moves.since a).bind fun _ => .pure
        intro c
        exact ⟨[], rfl, rfl, rfl⟩
      · exact (hg.type false).bind fun _ => (Moves.symbol ")").bind fun _ =>
          (Moves.since a).bind fun _ => .pure
  · refine Moves.ident.bind fun field => ?_
    split
    · exact (Moves.noteQualifier _).bind fun _ => (Moves.since a).bind fun _ => .pure
    · exact (Moves.since a).bind fun _ => .pure

theorem moves_upper {bound : Parse Unit} (hbound : Moves bound) :
    Moves (bracketTail.upper bound) := by
  refine (Moves.follows false "]").bind fun found => ?_
  split
  · exact .pure
  · refine hbound.bind fun _ => (Moves.follows false ":").bind fun found => ?_
    split
    · exact hbound.bind fun _ => .symbol "]"
    · exact .symbol "]"

theorem moves_bracketTail (hg : g.Moving) (a : Cursor) : Moves (bracketTail g a) := by
  have hbound : Moves (do let _ ← g.expr Mode.inner) :=
    (hg.expr Mode.inner).bind fun _ => .pure
  have hend : Moves (do return Expr.other (← since a)) := (Moves.since a).bind fun _ => .pure
  refine (Moves.symbol "[").bind fun _ => (Moves.follows false ":").bind fun found => ?_
  split
  · exact (moves_upper hbound).bind fun _ => hend
  · refine hbound.bind fun _ => (Moves.follows false ":").bind fun found => ?_
    split
    · exact (moves_upper hbound).bind fun _ => hend
    · exact (Moves.symbol "]").bind fun _ => hend

theorem moves_genericTail (hg : g.Moving) (m : Mode) (a : Cursor) (base : TypeExpr) :
    Moves (genericTail g m a base) := by
  refine (moves_typeArguments hg).bind fun _ => (Moves.since a).bind fun _ => ?_
  refine (Moves.skip m.ending).bind fun _ => (Moves.sees _).bind fun found => ?_
  split
  · exact (moves_compositeBody hg).bind fun _ => (Moves.since a).bind fun _ => .pure
  · exact (moves_conversionOperand hg).bind fun _ => (Moves.since a).bind fun _ => .pure

theorem moves_instanceTail (hg : g.Moving) (m : Mode) (a : Cursor) (e : Expr) :
    Moves (instanceTail g m a e) := by
  refine (moves_typeArguments hg).bind fun _ => Moves.bind (Moves.onward ?_ m.ending) fun call => ?_
  · refine (Moves.sees "(").bind fun found => ?_
    split
    · exact (moves_arguments hg).bind fun _ => .pure
    · exact .pure
  · split
    · exact (Moves.since a).bind fun _ => .pure
    · exact (Moves.since a).bind fun _ => .pure

theorem moves_indexTail (hg : g.Moving) (m : Mode) (a : Cursor) (e : Expr) :
    Moves (indexTail g m a e) := by
  unfold indexTail
  split
  · exact (moves_genericTail hg m a _).either
      ((moves_bracketTail hg a).either (moves_instanceTail hg m a e))
  · exact moves_bracketTail hg a

theorem moves_tailStep (hg : g.Moving) (m : Mode) (a : Cursor) (e : Expr) :
    Moves (tailStep g m a e) := by
  refine Moves.onward ?_ m.ending
  refine (Moves.sees ".").bind fun one => (Moves.sees "..").bind fun two => ?_
  split
  · exact (Moves.move 1).bind fun _ => (moves_selectorTail hg m a e).bind fun _ => .pure
  · refine (Moves.sees "[").bind fun found => ?_
    split
    · exact (moves_indexTail hg m a e).bind fun _ => .pure
    · refine (Moves.sees "(").bind fun found => ?_
      split
      · exact (moves_arguments hg).bind fun _ => (Moves.since a).bind fun _ => .pure
      · refine (Moves.sees _).bind fun found => ?_
        split
        · exact (moves_compositeBody hg).bind fun _ => (Moves.since a).bind fun _ => .pure
        · exact .pure

theorem moves_tails (hg : g.Moving) (m : Mode) (a : Cursor) (fuel : Nat) (e : Expr) :
    Moves (tails g m a fuel e) := by
  induction fuel generalizing e with
  | zero => exact .pure
  | succ fuel ih =>
      refine (moves_tailStep hg m a e).bind fun next => ?_
      split
      · exact ih _
      · exact .pure

theorem moves_primary (hg : g.Moving) (m : Mode) : Moves (primary g m) :=
  Moves.here.bind fun a => (moves_operand hg m).bind fun e => Moves.get.bind fun _ =>
    moves_tails hg m a _ e

theorem moves_unaryExpr (hg : g.Moving) (m : Mode) (fuel : Nat) : Moves (unaryExpr g m fuel) := by
  induction fuel with
  | zero => exact .fail
  | succ fuel ih =>
      refine Moves.here.bind fun a => (Moves.ahead 2).bind fun cs => ?_
      split
      · exact moves_primary hg m
      next mark _ =>
        have happly : Moves (do
            move mark.length
            let operand ← unaryExpr g m fuel
            return Expr.unary (← since a) (UnaryOp.ofText mark) operand) :=
          (Moves.move _).bind fun _ => ih.bind fun _ => (Moves.since a).bind fun _ => .pure
        dsimp only
        split
        · refine Moves.either ?_ happly
          exact (moves_typeOperand hg m a false).bind fun e => Moves.get.bind fun _ =>
            moves_tails hg m a _ e
        · exact happly

theorem moves_binaryTails (hg : g.Moving) (m : Mode) (fuel : Nat) :
    forall a least e, Moves (binaryTails g m a fuel least e) := by
  induction fuel with
  | zero =>
      intro a least e
      exact .pure
  | succ fuel ih =>
      intro a least e
      refine Moves.bind (Moves.onward ?_ m.ending) fun next => ?_
      · refine (Moves.ahead 3).bind fun cs => ?_
        split
        · split
          · exact .pure
          · exact (Moves.move _).bind fun _ => Moves.here.bind fun b => Moves.get.bind fun _ =>
              (moves_unaryExpr hg m _).bind fun right => (ih b _ right).bind fun _ =>
                (Moves.since a).bind fun _ => .pure
        · exact .pure
      · split
        · exact ih a least _
        · exact .pure

theorem moves_readExpr (hg : g.Moving) (m : Mode) : Moves (readExpr g m) :=
  Moves.here.bind fun a => (moves_unaryExpr hg m _).bind fun e => moves_binaryTails hg m _ a 1 e

end Grammar
end Source
end GoAtlas
