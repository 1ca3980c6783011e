import GoAtlas.Proofs.Check.Steady
import GoAtlas.Proofs.Source.Relocation

/-!
# Checks in step

Two checks that look at the same source in like scopes go in step: they find the same as long
as neither is lost.  What it means to be lost, and how the states are related on the way, is left
open; a tracking only has to agree on complaints and on packages, and the links of the two checks
have to be in step.  The source of the second check may stand elsewhere.
-/

namespace GoAtlas

/-- How two checks are compared. -/
structure Tracking where
  left : Answers
  right : Answers
  Rel : Progress -> Progress -> Prop
  /-- The first check has given up. -/
  LostLeft : Progress -> Prop
  /-- The second check has given up. -/
  LostRight : Progress -> Prop

namespace Resolve

def outcome {α : Type} (answers : Answers) (m : Resolve α) (p : Progress) : α × Progress :=
  (m.run p).under answers

@[simp] theorem outcome_pure {α : Type} (answers : Answers) (a : α) (p : Progress) :
    (pure a : Resolve α).outcome answers p = (a, p) := rfl

@[simp] theorem outcome_get (answers : Answers) (p : Progress) :
    (get : Resolve Progress).outcome answers p = (p, p) := rfl

@[simp] theorem outcome_bind {α β : Type} (answers : Answers) (m : Resolve α)
    (f : α -> Resolve β) (p : Progress) :
    (m >>= f).outcome answers p =
      (f (m.outcome answers p).1).outcome answers (m.outcome answers p).2 := by
  unfold outcome
  rw [StateT.run_bind, Inquiry.under_bind]

end Resolve

/-- The two passes go in step. -/
structure Tracks {α : Type} (T : Tracking) (m n : Resolve α) : Prop where
  left : forall p, T.LostLeft p -> T.LostLeft (m.outcome T.left p).2
  right : forall p, T.LostRight p -> T.LostRight (n.outcome T.right p).2
  both : forall p q, T.Rel p q ->
    T.LostLeft (m.outcome T.left p).2 ∨ T.LostRight (n.outcome T.right q).2 ∨
      ((m.outcome T.left p).1 = (n.outcome T.right q).1 ∧
        T.Rel (m.outcome T.left p).2 (n.outcome T.right q).2)

namespace Tracks

/-!
# Rules
-/

variable {T : Tracking} {ε α β : Type}

theorem pure (a : α) : Tracks T (Pure.pure a) (Pure.pure a) where
  left _ h := h
  right _ h := h
  both _ _ h := Or.inr (Or.inr ⟨rfl, h⟩)

theorem bind {m n : Resolve α} {f g : α -> Resolve β} (h : Tracks T m n)
    (hf : forall a, Tracks T (f a) (g a)) : Tracks T (m >>= f) (n >>= g) where
  left p hp := by
    rw [Resolve.outcome_bind]
    exact (hf _).left _ (h.left p hp)
  right p hp := by
    rw [Resolve.outcome_bind]
    exact (hf _).right _ (h.right p hp)
  both p q hpq := by
    rw [Resolve.outcome_bind, Resolve.outcome_bind]
    rcases h.both p q hpq with hlost | hlost | ⟨heq, hrel⟩
    · exact Or.inl ((hf _).left _ hlost)
    · exact Or.inr (Or.inl ((hf _).right _ hlost))
    · rw [← heq]
      exact (hf _).both _ _ hrel

theorem map {m n : Resolve α} (f : α -> β) (h : Tracks T m n) : Tracks T (f <$> m) (f <$> n) := by
  rw [map_eq_pure_bind, map_eq_pure_bind]
  exact h.bind fun a => pure (f a)

theorem throw (e : ε) :
    Tracks T (MonadExceptOf.throw e : ExceptT ε Resolve α).run
      (MonadExceptOf.throw e : ExceptT ε Resolve α).run :=
  pure _

theorem except_bind {m n : ExceptT ε Resolve α} {f g : α -> ExceptT ε Resolve β}
    (h : Tracks T m.run n.run) (hf : forall a, Tracks T (f a).run (g a).run) :
    Tracks T (m >>= f).run (n >>= g).run := by
  refine bind h ?_
  intro r
  cases r with
  | ok a => exact hf a
  | error e => exact pure _

theorem lift_bind {m n : Resolve α} {f g : α -> ExceptT ε Resolve β} (h : Tracks T m n)
    (hf : forall a, Tracks T (f a).run (g a).run) :
    Tracks T (ExceptT.lift m >>= f : ExceptT ε Resolve β).run
      (ExceptT.lift n >>= g : ExceptT ε Resolve β).run :=
  except_bind (h.map _) hf

theorem forM (items : List α) {f g : α -> Resolve PUnit} (h : forall a, Tracks T (f a) (g a)) :
    Tracks T (items.forM f) (items.forM g) := by
  induction items with
  | nil => exact pure _
  | cons a rest ih => exact (h a).bind fun _ => ih

theorem foldlM (items : List α) {f g : β -> α -> Resolve β}
    (h : forall b a, Tracks T (f b a) (g b a)) (b : β) :
    Tracks T (items.foldlM f b) (items.foldlM g b) := by
  induction items generalizing b with
  | nil => exact pure _
  | cons a rest ih =>
      rw [List.foldlM_cons, List.foldlM_cons]
      exact (h b a).bind ih

theorem mapM (items : List α) {f g : α -> Resolve β}
    (h : forall a, a ∈ items -> Tracks T (f a) (g a)) :
    Tracks T (items.mapM f) (items.mapM g) := by
  induction items with
  | nil => exact pure _
  | cons a rest ih =>
      rw [List.mapM_cons, List.mapM_cons]
      have hrest := ih fun b hb => h b (List.mem_cons_of_mem _ hb)
      exact (h a List.mem_cons_self).bind fun b => hrest.bind fun bs => pure (b :: bs)

end Tracks

/-- Complaints and packages are in step, and no complaint saves a check that is lost. -/
structure Tracking.Lawful (T : Tracking) : Prop where
  left_mono : forall p q : Progress, p.errors <+: q.errors -> T.LostLeft p -> T.LostLeft q
  right_mono : forall p q : Progress, p.errors <+: q.errors -> T.LostRight p -> T.LostRight q
  report : forall file line line' isSoft complaint,
    Tracks T (Resolve.report file line isSoft complaint)
      (Resolve.report file line' isSoft complaint)
  packageAt : forall path, Tracks T (Resolve.packageAt path) (Resolve.packageAt path)

theorem Tracking.Lawful.complain {T : Tracking} (h : T.Lawful) (file : String)
    (line line' : Nat) (complaint : Complaint) :
    Tracks T (Resolve.complain file line complaint) (Resolve.complain file line' complaint) :=
  h.report file line line' false complaint

theorem Tracking.Lawful.invalid {T : Tracking} (h : T.Lawful) (file : String)
    (line line' : Nat) (complaint : Complaint) :
    Tracks T (Resolve.invalid file line complaint) (Resolve.invalid file line' complaint) :=
  (h.complain file line line' complaint).bind fun _ => Tracks.pure _

namespace Scope

/-!
# Like scopes
-/

/-- Scopes in which names stand for things of the same kind. -/
structure Alike (sc other : Scope) : Prop where
  path : other.path = sc.path
  types : forall name, (other.types.get? name).map (fun d => d.spec.isAlias) =
    (sc.types.get? name).map fun d => d.spec.isAlias
  isConst : forall name, other.isConst name = sc.isConst name
  others : forall name, other.others.contains name = sc.others.contains name
  imports : forall file label, other.import? file label = sc.import? file label
  dots : forall file, (other.fileScope file).dots = (sc.fileScope file).dots

structure TrackedLinks (T : Tracking) (sc other : Scope) (links links' : Links) : Prop where
  aliased : forall name, Tracks T (links.aliased name) (links'.aliased name)
  underlying : forall name, Tracks T (links.underlying name) (links'.underlying name)
  const : forall name i j, sc.constIndex? name = some i -> other.constIndex? name = some j ->
    Tracks T (links.const i) (links'.const j)

namespace Alike

variable {sc other : Scope}

theorem refl (sc : Scope) : Alike sc sc :=
  ⟨rfl, fun _ => rfl, fun _ => rfl, fun _ => rfl, fun _ _ => rfl, fun _ => rfl⟩

theorem contains (h : Alike sc other) (name : String) :
    other.types.contains name = sc.types.contains name := by
  have hsome := congrArg Option.isSome (h.types name)
  rw [Option.isSome_map, Option.isSome_map] at hsome
  exact hsome

theorem dotType (h : Alike sc other) (file name : String) :
    other.dotType? file name = sc.dotType? file name := by
  unfold dotType?
  rw [h.dots]

theorem dotConst (h : Alike sc other) (file name : String) :
    other.dotConst? file name = sc.dotConst? file name := by
  unfold dotConst?
  rw [h.dots]

theorem qualifiedConst (h : Alike sc other) (file label name : String) :
    other.qualifiedConst file label name = sc.qualifiedConst file label name := by
  unfold Scope.qualifiedConst
  rw [h.imports]

theorem qualifiedTarget (h : Alike sc other) (file label name : String) :
    other.qualifiedTarget? file label name = sc.qualifiedTarget? file label name := by
  unfold qualifiedTarget?
  rw [h.imports]

theorem isSome_constIndex (h : Alike sc other) (name : String) :
    (other.constIndex? name).isSome = (sc.constIndex? name).isSome := by
  unfold constIndex?
  rw [List.findIdx?_isSome, List.findIdx?_isSome]
  exact h.isConst name

end Alike

/-!
# Names and conversions
-/

section Names

variable {T : Tracking} {sc other : Scope} {links links' : Links}
  {f : Source.Extent -> Source.Extent}

theorem tracks_underlyingWithin (hT : T.Lawful) (hscope : Alike sc other)
    (hlinks : TrackedLinks T sc other links links') (fuel : Nat) (type : GoType) :
    Tracks T (sc.underlyingWithin links fuel type) (other.underlyingWithin links' fuel type) := by
  induction fuel generalizing type with
  | zero => exact Tracks.pure _
  | succ fuel ih =>
      cases type with
      | named n =>
          cases n with
          | declared package name =>
              unfold underlyingWithin
              rw [hscope.path]
              split
              · exact hlinks.underlying name
              · apply (hT.packageAt package).bind
                intro answer
                cases answer with
                | none => exact Tracks.pure _
                | some p =>
                    dsimp only
                    cases p.type? name with
                    | none => exact Tracks.pure _
                    | some d =>
                        dsimp only
                        split
                        · exact ih _
                        · exact Tracks.pure _
          | builtin name =>
              unfold underlyingWithin
              split
              · exact Tracks.pure _
              · exact Tracks.pure _
      | _ => exact Tracks.pure _

theorem tracks_underlying (hT : T.Lawful) (hscope : Alike sc other)
    (hlinks : TrackedLinks T sc other links links') (type : GoType) :
    Tracks T (sc.underlying links type) (other.underlying links' type) :=
  tracks_underlyingWithin hT hscope hlinks chainLimit type

theorem tracks_namedType (hT : T.Lawful) (hscope : Alike sc other)
    (hlinks : TrackedLinks T sc other links links') (hf : Source.KeepsText f) (file : String)
    (tparams : List String) (x : Source.Extent) :
    Tracks T (sc.namedType links file tparams x) (other.namedType links' file tparams (f x)) := by
  have htypes := hscope.types x.text
  unfold namedType
  dsimp only
  rw [hf x, hscope.isConst, hscope.others, hscope.dotType, hscope.path]
  split
  · exact Tracks.pure _
  · cases hd : sc.types.get? x.text with
    | some d =>
        cases hd' : other.types.get? x.text with
        | none =>
            rw [hd, hd'] at htypes
            cases htypes
        | some d' =>
            rw [hd, hd'] at htypes
            dsimp only
            rw [show d'.spec.isAlias = d.spec.isAlias from Option.some.inj htypes]
            split
            · exact hlinks.aliased x.text
            · exact Tracks.pure _
    | none =>
        cases hd' : other.types.get? x.text with
        | some d' =>
            rw [hd, hd'] at htypes
            cases htypes
        | none =>
            dsimp only
            split
            · exact hT.invalid _ _ _ _
            · cases predeclared? x.text with
              | some type => exact Tracks.pure _
              | none =>
                  cases sc.dotType? file x.text with
                  | some type => exact Tracks.pure _
                  | none => exact hT.invalid _ _ _ _

theorem tracks_qualifiedType (hT : T.Lawful) (hscope : Alike sc other)
    (hf : Source.KeepsText f) (file : String) (label name : Source.Extent) :
    Tracks T (sc.qualifiedType file label name)
      (other.qualifiedType file (f label) (f name)) := by
  unfold qualifiedType
  rw [hf label, hf name, hscope.imports]
  cases sc.import? file label.text with
  | none => exact hT.invalid _ _ _ _
  | some b =>
      dsimp only
      split
      · split
        · exact Tracks.pure _
        · exact hT.invalid _ _ _ _
      · cases b.package with
        | none => exact Tracks.pure _
        | some package =>
            dsimp only
            split
            · exact hT.invalid _ _ _ _
            · split
              · exact Tracks.pure _
              · cases package.type? name.text with
                | some d => exact Tracks.pure _
                | none => exact hT.invalid _ _ _ _

theorem tracks_convertTo (hT : T.Lawful) (hscope : Alike sc other)
    (hlinks : TrackedLinks T sc other links links') (value : Constant) (target : GoType) :
    Tracks T (sc.convertTo links value target).run (other.convertTo links' value target).run := by
  unfold convertTo
  split
  · exact Tracks.pure _
  · apply Tracks.lift_bind (tracks_underlying hT hscope hlinks target)
    intro type
    split
    · exact Tracks.pure _
    · next kind _ =>
        cases value.convert kind with
        | ok v => exact Tracks.pure _
        | error cause => exact Tracks.throw _
    · exact Tracks.throw _

theorem tracks_assign (hT : T.Lawful) (hscope : Alike sc other)
    (hlinks : TrackedLinks T sc other links links') (x : Valued) (target : GoType) :
    Tracks T (sc.assign links x target).run (other.assign links' x target).run := by
  unfold assign
  dsimp only
  split
  · exact Tracks.throw _
  · exact tracks_convertTo hT hscope hlinks x.1 target

theorem tracks_literal (what text : String) (kind : BasicKind) (value : Option Constant) :
    Tracks T (literal what text kind value).run (literal what text kind value).run := by
  unfold literal
  split
  · exact Tracks.pure _
  · exact Tracks.throw _

theorem tracks_combine (hT : T.Lawful) (hscope : Alike sc other)
    (hlinks : TrackedLinks T sc other links links') (op : BinaryOp) (x y : Valued) :
    Tracks T (sc.combine links op x y).run (other.combine links' op x y).run := by
  have hconvert := tracks_convertTo hT hscope hlinks
  unfold combine
  dsimp only
  cases Constant.binary op x.1 y.1 with
  | error cause => exact Tracks.throw _
  | ok value =>
      dsimp only
      split
      · exact Tracks.pure _
      · split
        · split
          · exact Tracks.pure _
          · exact hconvert _ _
        · cases x.2.basic?.filter BasicKind.isUntyped with
          | some k =>
              cases y.2.basic?.filter BasicKind.isUntyped with
              | some l => exact Tracks.pure _
              | none => exact hconvert _ _
          | none =>
              cases y.2.basic?.filter BasicKind.isUntyped with
              | some l => exact hconvert _ _
              | none =>
                  dsimp only
                  split
                  · exact hconvert _ _
                  · exact Tracks.throw _

theorem tracks_identConst (hscope : Alike sc other)
    (hlinks : TrackedLinks T sc other links links') (file name : String) :
    Tracks T (sc.identConst links file name).run (other.identConst links' file name).run := by
  have hindex := hscope.isSome_constIndex name
  unfold identConst
  rw [hscope.dotConst]
  cases hi : sc.constIndex? name with
  | some i =>
      cases hj : other.constIndex? name with
      | none =>
          rw [hi, hj] at hindex
          cases hindex
      | some j =>
          apply Tracks.lift_bind (hlinks.const name i j hi hj)
          intro value
          cases value with
          | some v => exact Tracks.pure _
          | none => exact Tracks.throw _
  | none =>
      cases hj : other.constIndex? name with
      | some j =>
          rw [hi, hj] at hindex
          cases hindex
      | none =>
          cases sc.dotConst? file name with
          | some v => exact Tracks.pure _
          | none => exact Tracks.throw _

theorem tracks_identTarget (hT : T.Lawful) (hscope : Alike sc other)
    (hlinks : TrackedLinks T sc other links links') (hf : Source.KeepsText f) (file : String)
    (x : Source.Extent) :
    Tracks T (sc.identTarget links file x) (other.identTarget links' file (f x)) := by
  unfold identTarget
  rw [hf x, hscope.contains, hscope.isConst, hscope.others, hscope.dotType]
  split
  · exact (tracks_namedType hT hscope hlinks hf file [] x).bind fun _ => Tracks.pure _
  · split
    · exact Tracks.pure _
    · cases predeclared? x.text with
      | some type => exact Tracks.pure _
      | none => exact Tracks.pure _

theorem tracks_conversionTarget (hT : T.Lawful) (hscope : Alike sc other)
    (hlinks : TrackedLinks T sc other links links') (hf : Source.KeepsText f) (file : String)
    (function : Source.Expr) :
    Tracks T (sc.conversionTarget links file function)
      (other.conversionTarget links' file (function.relocate f)) := by
  match function with
  | .ident x => exact tracks_identTarget hT hscope hlinks hf file x
  | .selector _ operand field =>
      rw [Source.Expr.relocate, conversionTarget, conversionTarget, hscope.qualifiedTarget,
        Source.Expr.extent_relocate, hf, hf]
      exact Tracks.pure _
  | .paren _ inner => exact tracks_conversionTarget hT hscope hlinks hf file inner
  | .int _ | .float _ | .imaginary _ | .rune _ | .string _ | .bool _ _ | .iota _ | .nil _
  | .unary _ _ _ | .binary _ _ _ _ | .call _ _ _ | .conversion _ _ _ | .other _ =>
      exact Tracks.pure _

theorem isLen_relocate (hscope : Alike sc other) (hf : Source.KeepsText f) (e : Source.Expr) :
    other.isLen (e.relocate f) = sc.isLen e := by
  cases e with
  | ident x =>
      show ((f x).text == "len" && !other.types.contains "len") = _
      rw [hf x, hscope.contains]
      rfl
  | _ => rfl

end Names

/-!
# Fields and methods
-/

section Fields

variable {T : Tracking} {f : Source.Extent -> Source.Extent}

theorem embeddedName_relocate (hf : Source.KeepsText f) (type : Source.TypeExpr) :
    embeddedName (type.relocate f) = embeddedName type := by
  match type with
  | .qualified _ _ name => exact hf name
  | .generic _ base _ => exact embeddedName_relocate hf base
  | .pointer _ elem => exact embeddedName_relocate hf elem
  | .paren _ inner => exact embeddedName_relocate hf inner
  | .name x | .negated x _ | .slice x _ | .array x _ _ | .map x _ _ | .chan x _ _
  | .func x _ _ | .struct x _ | .interface x _ => exact hf x

theorem tagOf_map (hf : Source.KeepsText f) (tag : Option Source.Extent) :
    tagOf (tag.map f) = tagOf tag := by
  cases tag with
  | none => rfl
  | some x =>
      show Literal.string? (f x).text = Literal.string? x.text
      rw [hf x]

theorem tracks_addField (hT : T.Lawful) (file : String) (line line' : Nat)
    (fields : List (Field GoType)) (field : Field GoType) :
    Tracks T (addField file line fields field) (addField file line' fields field) := by
  unfold addField
  split
  · exact (hT.complain _ _ _ _).bind fun _ => Tracks.pure _
  · exact Tracks.pure _

theorem tracks_addFields (hT : T.Lawful) (hf : Source.KeepsText f) (file : String) (type : GoType)
    (tag : Option String) (package : String) (fields : List (Field GoType))
    (names : List Source.Extent) :
    Tracks T (addFields file type tag package fields names)
      (addFields file type tag package fields (names.map f)) := by
  induction names generalizing fields with
  | nil => exact Tracks.pure _
  | cons x names ih =>
      rw [List.map_cons, addFields, addFields, hf x]
      exact (tracks_addField hT _ _ _ _ _).bind fun fields => ih fields

theorem tracks_addMethod (hT : T.Lawful) (file : String) (line line' : Nat)
    (methods : List (InterfaceMethod GoType)) (m : InterfaceMethod GoType) :
    Tracks T (addMethod file line methods m) (addMethod file line' methods m) := by
  unfold addMethod
  split
  · exact (hT.complain _ _ _ _).bind fun _ => Tracks.pure _
  · exact Tracks.pure _

end Fields

end Scope
end GoAtlas
