import GoAtlas.Proofs.Check.IntegerConstants
import GoAtlas.Proofs.Constant.Kinds

/-!
# Operators and the types of their operands

A unary operator hands on the type of its operand, whatever becomes of the value, so that some
values leave the kind of the type.  A binary operation that is no shift brings its result to the
type of its operands: an untyped operand may fail to be a value of that type itself.  Comparisons do
not look at types at all.
-/

namespace GoAtlas

/-!
# Unary operators
-/

def BasicKind.IsSized (kind : BasicKind) : Prop :=
  exists n, kind.signedWidth? = some n ∨ kind.unsignedWidth? = some n

/-- The operator leads from the value out of the kind: what is below zero has no unsigned kind, and
the least value of a signed kind has no opposite. -/
inductive UnaryOp.Escapes (kind : BasicKind) : UnaryOp -> Int -> Prop where
  | negative {n : Nat} {a : Int} (h : kind.unsignedWidth? = some n) (ha : a ≠ 0) :
      Escapes kind .minus a
  | least {n : Nat} (h : kind.signedWidth? = some n) : Escapes kind .minus (-2 ^ (n - 1))
  | inverted {n : Nat} {a : Int} (h : kind.unsignedWidth? = some n) : Escapes kind .complement a

section Unary

variable {kind : BasicKind} {op : UnaryOp} {a c : Int}

theorem escapes_iff_of_signed {n : Nat} (h : kind.signedWidth? = some n) :
    op.Escapes kind a ↔ op = .minus ∧ a = -2 ^ (n - 1) := by
  constructor
  · intro hescapes
    cases hescapes with
    | negative hm | inverted hm => cases hm.symm.trans (BasicKind.unsignedWidth?_of_signed h)
    | least hm =>
        cases h.symm.trans hm
        exact ⟨rfl, rfl⟩
  · rintro ⟨rfl, rfl⟩
    exact .least h

theorem escapes_iff_of_unsigned {n : Nat} (h : kind.unsignedWidth? = some n) :
    op.Escapes kind a ↔ op = .minus ∧ a ≠ 0 ∨ op = .complement := by
  constructor
  · intro hescapes
    cases hescapes with
    | negative _ ha => exact Or.inl ⟨rfl, ha⟩
    | least hm => cases hm.symm.trans (BasicKind.signedWidth?_of_unsigned h)
    | inverted _ => exact Or.inr rfl
  · rintro (⟨rfl, ha⟩ | rfl)
    · exact .negative h ha
    · exact .inverted h

theorem signed_iff_not_escapes {n : Nat} (h : kind.signedWidth? = some n) (ha : kind.Has a)
    (hc : op.Gives a c) : kind.Has c ↔ ¬ op.Escapes kind a := by
  rw [escapes_iff_of_signed h]
  rw [BasicKind.has_of_signed h] at ha ⊢
  cases op with
  | plus =>
      cases hc
      exact ⟨fun _ hescapes => (by cases hescapes.1), fun _ => ha⟩
  | minus =>
      cases hc
      constructor
      · rintro ⟨_, hlt⟩ ⟨_, rfl⟩
        omega
      · intro hnot
        have hne : a ≠ -2 ^ (n - 1) := fun heq => hnot ⟨rfl, heq⟩
        omega
  | complement =>
      cases hc
      exact ⟨fun _ hescapes => (by cases hescapes.1), fun _ => (by omega)⟩
  | _ => exact hc.elim

theorem unsigned_iff_not_escapes {n : Nat} (h : kind.unsignedWidth? = some n) (ha : kind.Has a)
    (hc : op.Gives a c) : kind.Has c ↔ ¬ op.Escapes kind a := by
  rw [escapes_iff_of_unsigned h]
  rw [BasicKind.has_of_unsigned h] at ha ⊢
  cases op with
  | plus =>
      cases hc
      refine ⟨?_, fun _ => ha⟩
      rintro _ (⟨hop, _⟩ | hop)
      · cases hop
      · cases hop
  | minus =>
      cases hc
      constructor
      · rintro ⟨hle, _⟩ (⟨_, hne⟩ | hop)
        · omega
        · cases hop
      · intro hnot
        have hzero : a = 0 := by
          by_contra hne
          exact hnot (Or.inl ⟨rfl, hne⟩)
        omega
  | complement =>
      cases hc
      exact ⟨fun hhas => (by omega), fun hnot => absurd (Or.inr rfl) hnot⟩
  | _ => exact hc.elim

theorem has_iff_not_escapes (hsized : kind.IsSized) (ha : kind.Has a) (hc : op.Gives a c) :
    kind.Has c ↔ ¬ op.Escapes kind a := by
  obtain ⟨n, hn | hn⟩ := hsized
  · exact signed_iff_not_escapes hn ha hc
  · exact unsigned_iff_not_escapes hn ha hc

theorem ne_minInt_of_has (hsized : kind.IsSized) (ha : kind.Has a) : a ≠ Constant.minInt := by
  rintro rfl
  obtain ⟨n, hn | hn⟩ := hsized
  · have hle := (ha.signed n hn).1
    cases kind with
    | int | int8 | int16 | int32 | int64 =>
        cases hn
        unfold Constant.minInt at hle
        omega
    | _ => cases hn
  · have hle := (ha.unsigned n hn).1
    unfold Constant.minInt at hle
    omega

theorem unary_eq_ok_iff (hsized : kind.IsSized) (ha : kind.Has a) {v : Constant} :
    Constant.unary op (.int a) = .ok v ↔ exists c, op.Gives a c ∧ v = .int c := by
  cases op with
  | plus =>
      constructor
      · intro h
        cases h
        exact ⟨a, rfl, rfl⟩
      · rintro ⟨c, rfl, rfl⟩
        rfl
  | minus =>
      rw [Constant.unary, if_neg fun h => ne_minInt_of_has hsized ha (beq_iff_eq.mp h)]
      constructor
      · intro h
        cases h
        exact ⟨-a, rfl, rfl⟩
      · rintro ⟨c, rfl, rfl⟩
        rfl
  | complement =>
      constructor
      · intro h
        cases h
        exact ⟨_, Constant.complement_eq a, rfl⟩
      · rintro ⟨c, hc, rfl⟩
        rw [show c = Constant.complement a from hc.trans (Constant.complement_eq a).symm]
        rfl
  | _ =>
      constructor
      · intro h
        cases h
      · rintro ⟨c, hc, _⟩
        exact hc.elim

end Unary

namespace Scope

section Passes

variable {sc : Scope} {answers : Answers} {links : Links} {file : String} {iota : Option Nat}
  {p : Progress}

/-- A unary operator applied to a value of a sized kind has the result that it has on unbounded
integers, and that is of the same type although it is not in the kind where the operator leads out
of it. -/
theorem eval_unary_iff {x : Source.Extent} {op : UnaryOp} {operand : Source.Expr} {a : Int}
    {type : GoType} {kind : BasicKind}
    (hoperand : ((sc.eval links file iota operand).run.outcome answers p).1 = .ok (.int a, type))
    (hsized : kind.IsSized) (ha : kind.Has a) :
    (forall z, ((sc.eval links file iota (.unary x op operand)).run.outcome answers p).1 = .ok z ↔
      exists c, op.Gives a c ∧ z = (.int c, type)) ∧
    forall c, op.Gives a c -> (kind.Has c ↔ ¬ op.Escapes kind a) := by
  refine ⟨fun z => ?_, fun c hc => has_iff_not_escapes hsized ha hc⟩
  rw [eval, outcome_bind_of_ok hoperand]
  dsimp only
  constructor
  · intro h
    split at h
    · next v hv =>
        obtain ⟨c, hc, rfl⟩ := (unary_eq_ok_iff hsized ha).mp hv
        cases h
        exact ⟨c, hc, rfl⟩
    · cases h
  · rintro ⟨c, hc, rfl⟩
    rw [(unary_eq_ok_iff hsized ha).mpr ⟨c, hc, rfl⟩]
    rfl

end Passes
end Scope

def castExpr (kind number : String) : Source.Expr :=
  .call (.word kind) (.ident (.word kind)) [.int (.word number)]

/-- The complement of `uint8(1)` is `-2`, and of type `uint8`. -/
theorem eval_unary_iff_cast :
    let value := fun e => (((Scope.start "p").eval Scope.noLinks "a.go" none e).run.outcome
      noAnswers .blank).1
    (value (castExpr "uint8" "1") = .ok (.int 1, .basic .uint8) ∧ BasicKind.uint8.IsSized ∧
      BasicKind.uint8.Has 1) ∧
    value (.unary (.word "^uint8(1)") .complement (castExpr "uint8" "1")) =
      .ok (.int (-2), .basic .uint8) ∧
    ¬ BasicKind.uint8.Has (-2) := by
  intro value
  have hoperand : value (castExpr "uint8" "1") = .ok (.int 1, .basic .uint8) := rfl
  have hsized : BasicKind.uint8.IsSized := ⟨8, Or.inr rfl⟩
  have hhas : BasicKind.uint8.Has 1 := (BasicKind.has_of_unsigned rfl).mpr (by decide)
  have hgives : UnaryOp.complement.Gives 1 (-2) := show (-2 : Int) = -1 - 1 from rfl
  refine ⟨⟨hoperand, hsized, hhas⟩, ?_, fun h => ?_⟩
  · exact ((Scope.eval_unary_iff hoperand hsized hhas).1 _).mpr ⟨-2, hgives, rfl⟩
  · exact ((Scope.eval_unary_iff (x := .word "^uint8(1)") hoperand hsized hhas).2 _ hgives).mp h
      (.inverted (n := 8) rfl)

/-- A negated unsigned constant and the complement of one pass a check although no constant of their
type has these values. -/
theorem unary_leaves_kind :
    let o := (checkGo (.ofText
      "package p\n\nconst X = -uint8(5)\n\nconst Y = ^uint8(1)\n")).under noAnswers
    o.errors.map TypeError.text = [] ∧
    o.package.consts.map (fun c => (c.name, c.type.basic?, c.value.toInt?)) =
      [("X", some .uint8, some (-5)), ("Y", some .uint8, some (-2))] ∧
    ¬ BasicKind.uint8.Has (-5) ∧ ¬ BasicKind.uint8.Has (-2) := by
  refine ⟨by decide +kernel, by decide +kernel, fun h => ?_, fun h => ?_⟩
  · exact absurd ((BasicKind.has_of_unsigned rfl).mp h).1 (by decide)
  · exact absurd ((BasicKind.has_of_unsigned rfl).mp h).1 (by decide)

/-!
# Operands and results
-/

namespace Constant

/-- An operand of an operation that has the result, which is no truth about the operands. -/
inductive Feeds : Constant -> Constant -> Prop where
  | int (a v : Int) : Feeds (int a) (int v)
  | float {x : Constant} (h : exists a, x.toFloat? = some a) (v : Float) : Feeds x (float v)
  | string (a s : String) : Feeds (string a) (string s)
  | bool (a b : Bool) : Feeds (bool a) (bool b)

section Results

variable {op : BinaryOp} {x y v : Constant}

theorem compareBy_of_noComparison (hop : op.isComparison = false) (o : Ordering) :
    compareBy op o = .error (.notOnConstant op) := by
  cases op with
  | eq | ne | lt | le | gt | ge => cases hop
  | _ => rfl

theorem int_of_checked {a b c : Int} (h : checked op a b c = .ok v) : exists d, v = int d := by
  unfold checked at h
  split at h
  · cases h
    exact ⟨c, rfl⟩
  · cases h

theorem int_of_intOp {a b : Int} (hcomparison : op.isComparison = false)
    (hshift : op.isShift = false) (h : intOp op a b = .ok v) : exists c, v = int c := by
  cases op with
  | add | sub | mul => exact int_of_checked h
  | div =>
      rw [intOp] at h
      split at h
      · cases h
      · exact int_of_checked h
  | rem =>
      rw [intOp] at h
      split at h
      · cases h
      · split at h
        · cases h
        · cases h
          exact ⟨_, rfl⟩
  | bitAnd | bitOr | bitXor | bitClear =>
      cases h
      exact ⟨_, rfl⟩
  | shiftLeft | shiftRight => cases hshift
  | eq | ne | lt | le | gt | ge => cases hcomparison
  | and | or | other _ => cases h

theorem float_of_floatOp {a b : Float} (hcomparison : op.isComparison = false)
    (h : floatOp op a b = .ok v) : exists c, v = float c := by
  unfold floatOp at h
  split at h
  · cases h
    exact ⟨_, rfl⟩
  · cases h
    exact ⟨_, rfl⟩
  · cases h
    exact ⟨_, rfl⟩
  · split at h
    · cases h
    · cases h
      exact ⟨_, rfl⟩
  · split at h
    · rw [compareBy_of_noComparison hcomparison] at h
      cases h
    · cases h

theorem string_of_stringOp {a b : String} (hcomparison : op.isComparison = false)
    (h : stringOp op a b = .ok v) : exists s, v = string s := by
  unfold stringOp at h
  split at h
  · cases h
    exact ⟨_, rfl⟩
  · rw [compareBy_of_noComparison hcomparison] at h
    cases h

theorem bool_of_boolOp {a b : Bool} (h : boolOp op a b = .ok v) : exists c, v = bool c := by
  unfold boolOp at h
  split at h
  · cases h
    exact ⟨_, rfl⟩
  · cases h
    exact ⟨_, rfl⟩
  · cases h
    exact ⟨_, rfl⟩
  · cases h
    exact ⟨_, rfl⟩
  · cases h

theorem float_of_mixedOp {a b : Float} (hcomparison : op.isComparison = false)
    (hshift : op.isShift = false) (h : mixedOp op x y a b = .ok v) : exists c, v = float c := by
  unfold mixedOp at h
  rw [hshift, if_neg Bool.false_ne_true] at h
  exact float_of_floatOp hcomparison h

/-- Both operands of an operation that compares and shifts nothing are such as its result. -/
theorem feeds_of_binary (hcomparison : op.isComparison = false) (hshift : op.isShift = false)
    (h : binary op x y = .ok v) : Feeds x v ∧ Feeds y v := by
  cases x with
  | int a =>
      cases y with
      | int b =>
          obtain ⟨c, rfl⟩ := int_of_intOp hcomparison hshift h
          exact ⟨.int a c, .int b c⟩
      | float b =>
          obtain ⟨c, rfl⟩ := float_of_mixedOp hcomparison hshift h
          exact ⟨.float ⟨_, rfl⟩ c, .float ⟨_, rfl⟩ c⟩
      | string _ | bool _ => cases h
  | float a =>
      cases y with
      | int _ | float _ =>
          obtain ⟨c, rfl⟩ := float_of_mixedOp hcomparison hshift h
          exact ⟨.float ⟨_, rfl⟩ c, .float ⟨_, rfl⟩ c⟩
      | string _ | bool _ => cases h
  | string a =>
      cases y with
      | string b =>
          obtain ⟨s, rfl⟩ := string_of_stringOp hcomparison h
          exact ⟨.string a s, .string b s⟩
      | int _ | float _ | bool _ => cases h
  | bool a =>
      cases y with
      | bool b =>
          obtain ⟨c, rfl⟩ := bool_of_boolOp h
          exact ⟨.bool a c, .bool b c⟩
      | int _ | float _ | string _ => cases h

theorem Feeds.convert {kind : BasicKind} {w : Constant} (h : Feeds x v)
    (hv : v.convert kind = .ok w) :
    (exists u, x.convert kind = .ok u) ∨ kind.isInteger = true := by
  by_cases hinteger : kind.isInteger = true
  · exact Or.inr hinteger
  · refine Or.inl ?_
    unfold Constant.convert at hv ⊢
    rw [if_neg hinteger] at hv ⊢
    split at hv
    · next hfloat =>
        rw [if_pos hfloat]
        cases h with
        | int a => exact ⟨_, rfl⟩
        | float hx =>
            obtain ⟨a, ha⟩ := hx
            unfold toFloatKind
            rw [ha]
            exact ⟨_, rfl⟩
        | string | bool => cases hv
    · next hfloat =>
        rw [if_neg hfloat]
        split at hv
        · next hstring =>
            rw [if_pos hstring]
            cases h with
            | int a => exact ⟨_, rfl⟩
            | string a => exact ⟨_, rfl⟩
            | float | bool => cases hv
        · next hstring =>
            rw [if_neg hstring]
            split at hv
            · next hbool =>
                rw [if_pos hbool]
                cases h with
                | bool a => exact ⟨_, rfl⟩
                | int | string | float => cases hv
            · cases hv

end Results
end Constant

namespace Scope

/-!
# Binary operators
-/

/-- The operand converts to the type, or the kind behind the type is one of integers that does not
have it. -/
def Suits (sc : Scope) (answers : Answers) (links : Links) (p : Progress) (value : Constant)
    (type : GoType) : Prop :=
  (exists z, sc.Converts answers links p value type z) ∨
    exists kind cause, ((sc.underlying links type).outcome answers p).1 = .basic kind ∧
      kind.isInteger = true ∧ value.convert kind = .error cause

/-- How the types of two operands make that of a result. -/
inductive Joined (sc : Scope) (answers : Answers) (links : Links) (p : Progress) (op : BinaryOp)
    (l r : Valued) (v : Constant) : Valued -> Prop where
  /-- Whatever the types are. -/
  | compared (hop : op.isComparison = true) : Joined sc answers links p op l r v
      (v, .basic .untypedBool)
  | untyped {k m : BasicKind} (hop : op.isComparison = false) (hl : l.2 = .basic k)
      (hk : k.isUntyped = true) (hr : r.2 = .basic m) (hm : m.isUntyped = true) :
      Joined sc answers links p op l r v (v, .basic (untypedResult v k m))
  | alike {z : Valued} (hop : op.isComparison = false) (hl : isUntyped l.2 = false)
      (hr : isUntyped r.2 = false) (hsame : (l.2 == r.2) = true)
      (hz : sc.Converts answers links p v l.2 z) : Joined sc answers links p op l r v z
  /-- The result is brought to the type on the left. -/
  | left {z : Valued} (hop : op.isComparison = false) (hl : isUntyped l.2 = false)
      (hr : isUntyped r.2 = true) (hz : sc.Converts answers links p v l.2 z)
      (hsuits : sc.Suits answers links p r.1 l.2) : Joined sc answers links p op l r v z
  /-- The result is brought to the type on the right. -/
  | right {z : Valued} (hop : op.isComparison = false) (hl : isUntyped l.2 = true)
      (hr : isUntyped r.2 = false) (hz : sc.Converts answers links p v r.2 z)
      (hsuits : sc.Suits answers links p l.1 r.2) : Joined sc answers links p op l r v z

theorem filter_isUntyped_iff {type : GoType} {k : BasicKind} :
    type.basic?.filter BasicKind.isUntyped = some k ↔ type = .basic k ∧ k.isUntyped = true := by
  rw [Option.filter_eq_some_iff]
  refine and_congr_left fun _ => ?_
  cases type with
  | basic kind =>
      constructor
      · intro h
        exact congrArg GoType.basic (Option.some.inj h)
      · intro h
        cases h
        rfl
  | _ => exact ⟨fun h => (by cases h), fun h => (by cases h)⟩

theorem isUntyped_iff {type : GoType} :
    isUntyped type = true ↔ exists k, type.basic?.filter BasicKind.isUntyped = some k := by
  constructor
  · intro h
    cases type with
    | basic kind => exact ⟨kind, filter_isUntyped_iff.mpr ⟨rfl, h⟩⟩
    | _ => cases h
  · rintro ⟨k, hk⟩
    obtain ⟨rfl, huntyped⟩ := filter_isUntyped_iff.mp hk
    exact huntyped

theorem isUntyped_eq_false_iff {type : GoType} :
    isUntyped type = false ↔ type.basic?.filter BasicKind.isUntyped = none := by
  rw [← Bool.not_eq_true, isUntyped_iff, Option.eq_none_iff_forall_ne_some, not_exists]

section Binary

variable {sc : Scope} {answers : Answers} {links : Links} {p : Progress}

theorem suits_of_feeds {x v : Constant} {type : GoType} {z : Valued} (h : x.Feeds v)
    (hz : sc.Converts answers links p v type z) : sc.Suits answers links p x type := by
  rcases hz.unknown_or_convert with ⟨hunknown, _⟩ | ⟨kind, w, hvalid, hkind, hshape, hw, _⟩
  · exact Or.inl ⟨_, converts_of_unknown hunknown x⟩
  · cases hx : x.convert kind with
    | ok u => exact Or.inl ⟨_, converts_of_convert hvalid hkind hshape hx⟩
    | error cause =>
        rcases h.convert hw with ⟨u, hu⟩ | hinteger
        · cases hx.symm.trans hu
        · exact Or.inr ⟨kind, cause, hshape, hinteger, hx⟩

theorem joined_of_combine {op : BinaryOp} (hshift : op.isShift = false) {l r z : Valued}
    (h : ((sc.combine links op l r).run.outcome answers p).1 = .ok z) :
    exists v, Constant.binary op l.1 r.1 = .ok v ∧ sc.Joined answers links p op l r v z := by
  unfold combine at h
  dsimp only at h
  split at h
  · cases h
  · next v hv =>
      refine ⟨v, hv, ?_⟩
      split at h
      · next hop =>
          cases h
          exact .compared hop
      · next hop =>
          have hop : op.isComparison = false := eq_false_of_ne_true hop
          obtain ⟨hleft, hright⟩ := Constant.feeds_of_binary hop hshift hv
          rw [hshift, if_neg Bool.false_ne_true] at h
          split at h
          · next k m hk hm =>
              cases h
              obtain ⟨hl, hk⟩ := filter_isUntyped_iff.mp hk
              obtain ⟨hr, hm⟩ := filter_isUntyped_iff.mp hm
              exact .untyped hop hl hk hr hm
          · next hl hr =>
              exact .right hop (isUntyped_iff.mpr ⟨_, hl⟩) (isUntyped_eq_false_iff.mpr hr) h
                (suits_of_feeds hleft h)
          · next hl hr =>
              exact .left hop (isUntyped_eq_false_iff.mpr hl) (isUntyped_iff.mpr ⟨_, hr⟩) h
                (suits_of_feeds hright h)
          · next hl hr =>
              split at h
              · next hsame =>
                  exact .alike hop (isUntyped_eq_false_iff.mpr hl)
                    (isUntyped_eq_false_iff.mpr hr) hsame h
              · cases h

theorem combine_of_joined {op : BinaryOp} (hshift : op.isShift = false) {l r z : Valued}
    {v : Constant} (hv : Constant.binary op l.1 r.1 = .ok v)
    (h : sc.Joined answers links p op l r v z) :
    ((sc.combine links op l r).run.outcome answers p).1 = .ok z := by
  unfold combine
  dsimp only
  rw [hv]
  dsimp only
  cases h with
  | compared hop =>
      rw [if_pos hop]
      rfl
  | untyped hop hl hk hr hm =>
      rw [hop, hshift, filter_isUntyped_iff.mpr ⟨hl, hk⟩, filter_isUntyped_iff.mpr ⟨hr, hm⟩]
      rfl
  | alike hop hl hr hsame hz =>
      rw [hop, hshift, isUntyped_eq_false_iff.mp hl, isUntyped_eq_false_iff.mp hr,
        if_neg Bool.false_ne_true, if_neg Bool.false_ne_true]
      dsimp only
      rw [if_pos hsame]
      exact hz
  | left hop hl hr hz =>
      obtain ⟨k, hk⟩ := isUntyped_iff.mp hr
      rw [hop, hshift, isUntyped_eq_false_iff.mp hl, hk]
      exact hz
  | right hop hl hr hz =>
      obtain ⟨k, hk⟩ := isUntyped_iff.mp hl
      rw [hop, hshift, isUntyped_eq_false_iff.mp hr, hk]
      exact hz

/-- A binary operation that is no shift has a value exactly if both operands have one, the operation
has a result, and the types make the type of the result. -/
theorem eval_binary_iff {file : String} {iota : Option Nat} {x : Source.Extent} {op : BinaryOp}
    (hshift : op.isShift = false) {left right : Source.Expr} {z : Valued} :
    ((sc.eval links file iota (.binary x op left right)).run.outcome answers p).1 = .ok z ↔
      exists l r v, ((sc.eval links file iota left).run.outcome answers p).1 = .ok l ∧
        ((sc.eval links file iota right).run.outcome answers
          ((sc.eval links file iota left).run.outcome answers p).2).1 = .ok r ∧
        Constant.binary op l.1 r.1 = .ok v ∧
        sc.Joined answers links ((sc.eval links file iota right).run.outcome answers
          ((sc.eval links file iota left).run.outcome answers p).2).2 op l r v z := by
  rw [eval]
  constructor
  · intro h
    obtain ⟨l, hl, h⟩ := ok_of_bind h
    obtain ⟨r, hr, h⟩ := ok_of_bind h
    obtain ⟨v, hv, hjoined⟩ := joined_of_combine hshift h
    exact ⟨l, r, v, hl, hr, hv, hjoined⟩
  · rintro ⟨l, r, v, hl, hr, hv, hjoined⟩
    rw [outcome_bind_of_ok hl, outcome_bind_of_ok hr]
    exact combine_of_joined hshift hv hjoined

end Binary
end Scope

def sumExpr : Source.Expr :=
  .binary (.word "uint8(200) + -100") .add (castExpr "uint8" "200")
    (.unary (.word "-100") .minus (.int (.word "100")))

/-- The sum has a value of type `uint8`, which `-100` does not convert to. -/
theorem eval_binary_iff_sumExpr :
    BinaryOp.add.isShift = false ∧
    (((Scope.start "p").eval Scope.noLinks "a.go" none sumExpr).run.outcome noAnswers .blank).1 =
      .ok (.int 100, .basic .uint8) ∧
    (Constant.int (-100)).convert .uint8 = .error (.outOfRange (-100) .uint8) := by
  refine ⟨rfl, ?_, rfl⟩
  refine (Scope.eval_binary_iff rfl).mpr
    ⟨(.int 200, .basic .uint8), (.int (-100), .basic .untypedInt), .int 100, rfl, rfl, rfl, ?_⟩
  exact .left rfl rfl rfl rfl (Or.inr ⟨.uint8, .outOfRange (-100) .uint8, rfl, rfl, rfl⟩)

/-- Values of different types are compared, and an untyped operand need not be a value of the type
of the other one. -/
theorem mixed_operands_accepted :
    let value := fun e => (((Scope.start "p").eval Scope.noLinks "a.go" none e).run.outcome
      noAnswers .blank).1
    (value (castExpr "uint8" "1") = .ok (.int 1, .basic .uint8) ∧
      value (castExpr "int8" "1") = .ok (.int 1, .basic .int8) ∧
      value (.binary (.word "uint8(1) == int8(1)") .eq (castExpr "uint8" "1")
        (castExpr "int8" "1")) = .ok (.bool true, .basic .untypedBool) ∧
      Scope.isUntyped (.basic .uint8) = false ∧ Scope.isUntyped (.basic .int8) = false ∧
      (GoType.basic .uint8 == .basic .int8) = false) ∧
    let o := (checkGo (.ofText
      "package p\n\nconst X = uint8(1) == int8(1)\n\nconst Y = uint8(200) + -100\n")).under
        noAnswers
    o.errors.map TypeError.text = [] ∧
    o.package.consts.map (fun c => (c.name, c.type.basic?, c.value.toInt?)) =
      [("X", some .untypedBool, none), ("Y", some .uint8, some 100)] :=
  ⟨⟨rfl, rfl, rfl, rfl, rfl, rfl⟩, by decide +kernel, by decide +kernel⟩

end GoAtlas
