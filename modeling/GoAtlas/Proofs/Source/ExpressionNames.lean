import GoAtlas.Proofs.Source.ForeignNames

/-!
# Names in constant expressions

In a constant expression that was read from a file, what a selector selects is an identifier, and so
is what stands behind a qualifier in the types of its conversions.
-/

namespace GoAtlas
namespace Source

/-- The selected names have no dot, and neither have those in the types of conversions. -/
inductive PlainExpr : Expr -> Prop
  | int (x : Extent) : PlainExpr (.int x)
  | float (x : Extent) : PlainExpr (.float x)
  | imaginary (x : Extent) : PlainExpr (.imaginary x)
  | rune (x : Extent) : PlainExpr (.rune x)
  | string (x : Extent) : PlainExpr (.string x)
  | bool (x : Extent) (value : Bool) : PlainExpr (.bool x value)
  | iota (x : Extent) : PlainExpr (.iota x)
  | nil (x : Extent) : PlainExpr (.nil x)
  | ident (x : Extent) : PlainExpr (.ident x)
  | paren {x : Extent} {inner : Expr} (h : PlainExpr inner) : PlainExpr (.paren x inner)
  | selector {x : Extent} {operand : Expr} {field : Extent} (h : Plain field.text) :
      PlainExpr (.selector x operand field)
  | unary {x : Extent} {op : UnaryOp} {operand : Expr} (h : PlainExpr operand) :
      PlainExpr (.unary x op operand)
  | binary {x : Extent} {op : BinaryOp} {left right : Expr} (hleft : PlainExpr left)
      (hright : PlainExpr right) : PlainExpr (.binary x op left right)
  | call {x : Extent} {function : Expr} {arguments : List Expr} (hfunction : PlainExpr function)
      (harguments : forall e, e ∈ arguments -> PlainExpr e) :
      PlainExpr (.call x function arguments)
  | conversion {x : Extent} {type : TypeExpr} {operand : Expr} (htype : PlainNames type)
      (h : PlainExpr operand) : PlainExpr (.conversion x type operand)
  | other (x : Extent) : PlainExpr (.other x)

/-- What a line of constants says has plain names only. -/
structure PlainConsts (spec : ConstSpec) : Prop where
  type : forall type, spec.type = some type -> PlainNames type
  values : forall values, spec.values = some values -> forall e, e ∈ values -> PlainExpr e

theorem Parse.Gives.commaList {α : Type} {P : α -> Prop} {item : Parse α} (hitem : Gives P item)
    (ending : Bool) : Gives (fun as => forall a, a ∈ as -> P a) (Parse.commaList ending item) := by
  refine hitem.bind ?_
  intro first hfirst
  refine (many (P := P) ?_).bind fun more hmore =>
    pure (List.forall_mem_cons.mpr ⟨hfirst, hmore⟩)
  refine after fun found => ?_
  split
  · exact hitem.just
  · exact nothing

namespace Grammar

open Parse

/-- The types and expressions that a grammar reads have plain names only. -/
structure Neat (g : Grammar) : Prop where
  types : g.Tidy
  expr (m : Mode) : Gives PlainExpr (g.expr m)

variable {g : Grammar}

/-!
# Arguments
-/

theorem gives_since_other (a : Cursor) : Gives PlainExpr (do return Expr.other (← since a)) :=
  Gives.after fun _ => Gives.pure (.other _)

theorem gives_argument (hg : g.Neat) : Gives PlainExpr (argument g) := by
  refine Gives.after fun a => (hg.expr Mode.inner).bind fun e he => Gives.after fun found => ?_
  split
  · exact gives_since_other a
  · exact Gives.pure he

theorem gives_arguments (hg : g.Neat) :
    Gives (fun es => forall e, e ∈ es -> PlainExpr e) (arguments g) := by
  refine Gives.after fun _ => Gives.after fun closed => ?_
  split
  · exact Gives.pure (List.forall_mem_nil _)
  · refine (gives_argument hg).bind fun first hfirst => ?_
    refine (Gives.many (P := PlainExpr) ?_).bind fun more hmore =>
      Gives.pure (List.forall_mem_cons.mpr ⟨hfirst, hmore⟩)
    refine Gives.after fun closed => ?_
    split
    · exact Gives.nothing
    · refine Gives.after fun _ => Gives.after fun closed => ?_
      split
      · exact Gives.nothing
      · exact (gives_argument hg).just

theorem gives_typeFirstArguments (hg : g.Neat) :
    Gives (fun es => forall e, e ∈ es -> PlainExpr e) (typeFirstArguments g) := by
  refine Gives.after fun _ => Gives.after fun closed => ?_
  split
  · exact Gives.pure (List.forall_mem_nil _)
  · refine Gives.after fun type => ?_
    refine (Gives.many (P := PlainExpr) ?_).bind fun more hmore =>
      Gives.pure (List.forall_mem_cons.mpr ⟨.other _, hmore⟩)
    refine Gives.after fun closed => ?_
    split
    · exact Gives.nothing
    · refine Gives.after fun _ => Gives.after fun closed => ?_
      split
      · exact Gives.nothing
      · exact (hg.expr Mode.inner).just

theorem gives_conversionOperand (hg : g.Neat) : Gives PlainExpr (conversionOperand g) :=
  Gives.after fun _ => (hg.expr Mode.inner).bind fun _ he => Gives.after fun _ =>
    Gives.after fun _ => Gives.pure he

/-!
# Operands
-/

theorem gives_afterType (hg : g.Neat) (m : Mode) (a : Cursor) {type : TypeExpr}
    (htype : PlainNames type) (composite : Bool) :
    Gives PlainExpr (afterType g m a type composite) := by
  refine Gives.after fun _ => Gives.after fun found => ?_
  split
  · exact Gives.after fun _ => gives_since_other a
  · refine Gives.after fun found => ?_
    split
    · exact (gives_conversionOperand hg).bind fun _ he => Gives.after fun _ =>
        Gives.pure (.conversion htype he)
    · refine Gives.after fun found => ?_
      split
      · exact Gives.after fun _ => gives_since_other a
      · exact Gives.fail

theorem gives_typeOperand (hg : g.Neat) (m : Mode) (a : Cursor) (composite : Bool) :
    Gives PlainExpr (typeOperand g m a composite) :=
  (hg.types.bareType m.ending).bind fun _ htype => gives_afterType hg m a htype composite

theorem gives_funcOperand (hg : g.Neat) (m : Mode) (a : Cursor) :
    Gives PlainExpr (funcOperand g m a) := by
  refine (hg.types.bareType m.ending).bind fun type htype => Gives.after fun _ =>
    Gives.after fun found => ?_
  split
  · exact Gives.after fun _ => gives_since_other a
  · exact gives_afterType hg m a htype false

theorem gives_parenOperand (hg : g.Neat) (m : Mode) (a : Cursor) :
    Gives PlainExpr (parenOperand g m a) := by
  refine Gives.either ?_ ?_
  · exact Gives.after fun _ => (hg.expr Mode.inner).bind fun _ he => Gives.after fun _ =>
      Gives.after fun _ => Gives.pure (.paren he)
  · exact (hg.types.type m.ending).bind fun _ htype => gives_afterType hg m a htype false

theorem gives_builderOperand (hg : g.Neat) (m : Mode) (a : Cursor) :
    Gives PlainExpr (builderOperand g m a) := by
  refine Gives.after fun x => Gives.bind (Gives.onward
    (P := fun es => forall e, e ∈ es -> PlainExpr e) ?_ m.ending) ?_
  · refine Gives.after fun found => ?_
    split
    · exact (gives_typeFirstArguments hg).just
    · exact Gives.nothing
  · intro call hcall
    split
    next arguments => exact Gives.after fun _ => Gives.pure (.call (.ident x) (hcall arguments rfl))
    · exact Gives.pure (.ident x)

theorem gives_wordOperand (hg : g.Neat) (m : Mode) (a : Cursor) :
    Gives PlainExpr (wordOperand g m a) := by
  refine Gives.after fun w => ?_
  split
  · exact Gives.fail
  · exact gives_funcOperand hg m a
  · exact gives_typeOperand hg m a true
  · exact gives_typeOperand hg m a true
  · exact gives_typeOperand hg m a false
  · exact gives_typeOperand hg m a false
  · exact gives_builderOperand hg m a
  · exact gives_builderOperand hg m a
  · exact Gives.after fun x => Gives.pure (.nil x)
  · exact Gives.after fun x => Gives.pure (.iota x)
  · exact Gives.after fun x => Gives.pure (.bool x true)
  · exact Gives.after fun x => Gives.pure (.bool x false)
  · exact Gives.after fun x => Gives.pure (.ident x)

theorem gives_number : Gives PlainExpr number := by
  refine Gives.after fun c => ?_
  dsimp only
  split
  · exact Gives.after fun x => Gives.pure (.imaginary x)
  · split
    · exact Gives.after fun x => Gives.pure (.float x)
    · exact Gives.after fun x => Gives.pure (.int x)

theorem gives_operand (hg : g.Neat) (m : Mode) : Gives PlainExpr (operand g m) := by
  refine Gives.after fun a => Gives.after fun cs => ?_
  split
  · exact Gives.fail
  · split
    · exact gives_number
    · split
      · exact gives_number
      · split
        · exact Gives.after fun x => Gives.pure (.string x)
        · split
          · exact Gives.after fun _ => Gives.after fun x => Gives.pure (.rune x)
          · split
            · exact gives_parenOperand hg m a
            · split
              · refine (gives_typeOperand hg m a true).either ?_
                exact Gives.after fun _ => Gives.after fun _ => Gives.after fun _ =>
                  Gives.after fun _ => Gives.after fun _ => Gives.after fun _ =>
                    gives_since_other a
              · exact gives_wordOperand hg m a

/-!
# What follows an operand
-/

theorem plain_asTypeName {e : Expr} (he : PlainExpr e) {type : TypeExpr}
    (htype : asTypeName? e = some type) : PlainNames type := by
  unfold asTypeName? at htype
  split at htype
  · cases htype
    exact .name _
  · cases htype
    cases he with
    | selector h => exact .qualified h
  · cases htype

theorem gives_selectorTail (g : Grammar) (m : Mode) (a : Cursor) (e : Expr) :
    Gives PlainExpr (selectorTail g m a e) := by
  refine Gives.after fun found => ?_
  split
  · refine Gives.after fun guarded => ?_
    split
    · exact Gives.after fun _ => gives_since_other a
    · exact Gives.after fun _ => Gives.after fun _ => gives_since_other a
  · refine gives_ident.bind fun field hfield => ?_
    dsimp only
    split
    · exact Gives.after fun _ => Gives.after fun _ => Gives.pure (.selector hfield)
    · exact Gives.after fun _ => Gives.pure (.selector hfield)

theorem gives_bracketTail (g : Grammar) (a : Cursor) : Gives PlainExpr (bracketTail g a) := by
  refine Gives.after fun _ => Gives.after fun found => ?_
  dsimp only
  split
  · exact Gives.after fun _ => gives_since_other a
  · refine Gives.after fun _ => Gives.after fun found => ?_
    split
    · exact Gives.after fun _ => gives_since_other a
    · exact Gives.after fun _ => gives_since_other a

theorem gives_genericTail (hg : g.Neat) (m : Mode) (a : Cursor) {base : TypeExpr}
    (hbase : PlainNames base) : Gives PlainExpr (genericTail g m a base) := by
  refine Gives.after fun _ => Gives.after fun _ => Gives.after fun _ => Gives.after fun found => ?_
  split
  · exact Gives.after fun _ => gives_since_other a
  · exact (gives_conversionOperand hg).bind fun _ he => Gives.after fun _ =>
      Gives.pure (.conversion (.generic hbase) he)

theorem gives_instanceTail (hg : g.Neat) (m : Mode) (a : Cursor) {e : Expr} (he : PlainExpr e) :
    Gives PlainExpr (instanceTail g m a e) := by
  refine Gives.after fun _ => Gives.bind (Gives.onward
    (P := fun es => forall e, e ∈ es -> PlainExpr e) ?_ m.ending) ?_
  · refine Gives.after fun found => ?_
    split
    · exact (gives_arguments hg).just
    · exact Gives.nothing
  · intro call hcall
    split
    next arguments => exact Gives.after fun _ => Gives.pure (.call he (hcall arguments rfl))
    · exact gives_since_other a

theorem gives_indexTail (hg : g.Neat) (m : Mode) (a : Cursor) {e : Expr} (he : PlainExpr e) :
    Gives PlainExpr (indexTail g m a e) := by
  unfold indexTail
  split
  next base hbase =>
    exact (gives_genericTail hg m a (plain_asTypeName he hbase)).either
      ((gives_bracketTail g a).either (gives_instanceTail hg m a he))
  · exact gives_bracketTail g a

theorem gives_tailStep (hg : g.Neat) (m : Mode) (a : Cursor) {e : Expr} (he : PlainExpr e) :
    Gives (fun r => forall e, r = some e -> PlainExpr e) (tailStep g m a e) := by
  refine Gives.onward ?_ m.ending
  refine Gives.after fun one => Gives.after fun two => ?_
  split
  · exact Gives.after fun _ => (gives_selectorTail g m a e).just
  · refine Gives.after fun found => ?_
    split
    · exact (gives_indexTail hg m a he).just
    · refine Gives.after fun found => ?_
      split
      · refine (gives_arguments hg).bind fun arguments harguments => Gives.after fun x =>
          Gives.pure ?_
        rintro _ ⟨⟩
        exact .call he harguments
      · refine Gives.after fun found => ?_
        split
        · exact Gives.after fun _ => (gives_since_other a).just
        · exact Gives.nothing

theorem gives_tails (hg : g.Neat) (m : Mode) (a : Cursor) (fuel : Nat) {e : Expr}
    (he : PlainExpr e) : Gives PlainExpr (tails g m a fuel e) := by
  induction fuel generalizing e with
  | zero => exact Gives.pure he
  | succ fuel ih =>
      refine (gives_tailStep hg m a he).bind fun next hnext => ?_
      split
      next e' => exact ih (hnext e' rfl)
      · exact Gives.pure he

theorem gives_primary (hg : g.Neat) (m : Mode) : Gives PlainExpr (primary g m) :=
  Gives.after fun a => (gives_operand hg m).bind fun _ he => Gives.after fun _ =>
    gives_tails hg m a _ he

/-!
# Operators
-/

theorem gives_unaryExpr (hg : g.Neat) (m : Mode) (fuel : Nat) :
    Gives PlainExpr (unaryExpr g m fuel) := by
  induction fuel with
  | zero => exact Gives.fail
  | succ fuel ih =>
      refine Gives.after fun a => Gives.after fun cs => ?_
      split
      · exact gives_primary hg m
      next mark _ =>
        have happly : Gives PlainExpr (do
            move mark.length
            let operand ← unaryExpr g m fuel
            return Expr.unary (← since a) (UnaryOp.ofText mark) operand) :=
          Gives.after fun _ => ih.bind fun _ he => Gives.after fun _ => Gives.pure (.unary he)
        dsimp only
        split
        · refine Gives.either ?_ happly
          exact (gives_typeOperand hg m a false).bind fun _ he => Gives.after fun _ =>
            gives_tails hg m a _ he
        · exact happly

theorem gives_binaryTails (hg : g.Neat) (m : Mode) (fuel : Nat) (a : Cursor) (least : Nat)
    {e : Expr} (he : PlainExpr e) : Gives PlainExpr (binaryTails g m a fuel least e) := by
  induction fuel generalizing a least e with
  | zero => exact Gives.pure he
  | succ fuel ih =>
      refine Gives.bind (Gives.onward (P := PlainExpr) ?_ m.ending) fun next hnext => ?_
      · refine Gives.after fun cs => ?_
        split
        · split
          · exact Gives.nothing
          · refine Gives.after fun _ => Gives.after fun b => Gives.after fun _ =>
              (gives_unaryExpr hg m _).bind fun right hright => (ih b _ hright).bind
                fun right hright => Gives.after fun x => Gives.pure ?_
            rintro _ ⟨⟩
            exact .binary he hright
        · exact Gives.nothing
      · split
        next e' => exact ih a least (hnext e' rfl)
        · exact Gives.pure he

theorem gives_readExpr (hg : g.Neat) (m : Mode) : Gives PlainExpr (readExpr g m) :=
  Gives.after fun a => (gives_unaryExpr hg m _).bind fun _ he => gives_binaryTails hg m _ a 1 he

theorem neat_ofDepth (depth : Nat) : (ofDepth depth).Neat := by
  induction depth with
  | zero => exact ⟨tidy_ofDepth 0, fun _ => Gives.fail⟩
  | succ depth ih => exact ⟨tidy_ofDepth (depth + 1), gives_readExpr ih⟩

/-!
# Declarations
-/

theorem gives_constSpec (hg : g.Neat) : Gives PlainConsts (constSpec g) := by
  refine Gives.after fun a => Gives.after fun names => Gives.after fun bare =>
    Gives.after fun ended => ?_
  split
  · exact Gives.after fun _ => Gives.after fun _ =>
      Gives.pure ⟨fun _ h => (by cases h), fun _ h => (by cases h)⟩
  · have hrest (type : Option TypeExpr) (htype : forall t, type = some t -> PlainNames t) :
        Gives PlainConsts (do
          symbol "="
          let values ← exprList g Mode.line
          return ⟨← since a, names, type, some values⟩) := by
      refine Gives.after fun _ => ((hg.expr Mode.line).commaList true).bind fun values hvalues =>
        Gives.after fun _ => Gives.pure ⟨htype, ?_⟩
      rintro _ ⟨⟩
      exact hvalues
    refine Gives.after fun found => ?_
    dsimp only
    split
    · exact hrest none fun _ h => by cases h
    · refine (hg.types.type false).bind fun type htype => hrest (some type) ?_
      rintro _ ⟨⟩
      exact htype

def EachConst (P : ConstSpec -> Prop) (d : Decl) : Prop :=
  forall specs, d = .consts specs -> forall spec, spec ∈ specs -> P spec

theorem gives_topLevel_const {P : ConstSpec -> Prop} (hspec : Gives P (constSpec g)) :
    Gives (EachConst P) (topLevel g) := by
  apply gives_topLevel_of
  · intro c specs c' _ _ heq
    cases heq
  · refine (gives_group hspec).mono ?_
    rintro specs h _ ⟨⟩
    exact h
  · rintro d h specs rfl
    exact h.elim

end Grammar

theorem File.plainConsts_of_read {bytes : Text.Bytes} {f : File} (h : File.read bytes = .ok f)
    {d : Decl} (hd : d ∈ f.decls) : Grammar.EachConst PlainConsts d := by
  refine decls_of_read (fun depth => ?_) h hd
  exact Grammar.gives_topLevel_const (Grammar.gives_constSpec (Grammar.neat_ofDepth depth))

end Source
end GoAtlas
