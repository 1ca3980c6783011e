import GoAtlas.Proofs.Check.Accounting
import GoAtlas.Proofs.Check.Evaluated
import GoAtlas.Proofs.Check.Found
import GoAtlas.Proofs.Check.Termination
import GoAtlas.Proofs.Constant.Escapes
import GoAtlas.Proofs.Constant.Integers

/-!
# Integer constants

An untyped integer expression denotes a number over unbounded integers.  Wherever the second pass
of a check evaluates such an expression, it finds that number or gives up: a constant that it
remembers is remembered with the number that its expression denotes, and no step of the pass
changes that.
-/

namespace GoAtlas

open Scope (Pending)

/-- The constant is the integer, untyped and within 128 bits. -/
structure IsInteger (x : Valued) (v : Int) : Prop where
  value : x.1 = .int v
  fits : Constant.fits v = true
  untyped : x.2 = .basic .untypedInt ∨ x.2 = .basic .untypedRune

theorem IsInteger.unique {x : Valued} {v w : Int} (h : IsInteger x v) (h' : IsInteger x w) :
    v = w :=
  Constant.int.inj (h.value.symm.trans h'.value)

theorem IsInteger.exists_kind {x : Valued} {v : Int} (h : IsInteger x v) :
    exists kind : BasicKind, x = (.int v, .basic kind) ∧ kind.isUntyped = true ∧
      (kind = .untypedInt ∨ kind = .untypedRune) := by
  rcases h.untyped with htype | htype
  · exact ⟨.untypedInt, Prod.ext h.value htype, rfl, Or.inl rfl⟩
  · exact ⟨.untypedRune, Prod.ext h.value htype, rfl, Or.inr rfl⟩

theorem isInteger_of_kind {v : Int} {kind : BasicKind} (hv : Constant.fits v = true)
    (hkind : kind = .untypedInt ∨ kind = .untypedRune) : IsInteger (.int v, .basic kind) v :=
  ⟨rfl, hv, hkind.imp (congrArg _) (congrArg _)⟩

namespace Scope

/-!
# What expressions denote
-/

/-- The constant of another package that an expression names, behind a qualifier or without
one. -/
def foreign? (sc : Scope) (file : String) : Source.Expr -> Option Valued
  | .ident x =>
      match sc.constIndex? x.text with
      | some _ => none
      | none => sc.dotConst? file x.text
  | .selector _ (.ident label) field => (sc.qualifiedConst file label.text field.text).toOption
  | _ => none

theorem foreign?_of_index {sc : Scope} {x : Source.Extent} {i : Nat}
    (h : sc.constIndex? x.text = some i) (file : String) : sc.foreign? file (.ident x) = none := by
  unfold foreign?
  dsimp only
  rw [h]

/-- The number that an expression of a file denotes, if `iota` is known for some number.  A constant
of the package denotes what the expression denotes that its declaration pairs it with, under the
`iota` of that declaration; one of another package is the number that it is there. -/
inductive Denotes (sc : Scope) : String -> Option Nat -> Source.Expr -> Int -> Prop where
  | int {file : String} {iota : Option Nat} {x : Source.Extent} {n : Nat}
      (h : Literal.Numeral (Literal.withoutUnderscores x.text) n) :
      Denotes sc file iota (.int x) n
  | rune {file : String} {iota : Option Nat} {x : Source.Extent} {body : List Char} {n : Nat}
      (htext : x.text.toList = '\'' :: body ++ ['\'']) (h : Literal.Quoted body n) :
      Denotes sc file iota (.rune x) n
  | iota {file : String} {n : Nat} {x : Source.Extent} : Denotes sc file (some n) (.iota x) n
  | paren {file : String} {iota : Option Nat} {x : Source.Extent} {inner : Source.Expr} {v : Int}
      (h : Denotes sc file iota inner v) : Denotes sc file iota (.paren x inner) v
  | unary {file : String} {iota : Option Nat} {x : Source.Extent} {op : UnaryOp}
      {operand : Source.Expr} {a c : Int} (h : Denotes sc file iota operand a)
      (hop : op.Gives a c) : Denotes sc file iota (.unary x op operand) c
  | binary {file : String} {iota : Option Nat} {x : Source.Extent} {op : BinaryOp}
      {left right : Source.Expr} {a b c : Int} (hleft : Denotes sc file iota left a)
      (hright : Denotes sc file iota right b) (hop : op.Gives a b c) :
      Denotes sc file iota (.binary x op left right) c
  | const {file : String} {iota : Option Nat} {x : Source.Extent} {i : Nat} {d : ConstDecl}
      {expr : Source.Expr} {v : Int} (hi : sc.constIndex? x.text = some i)
      (hd : sc.consts[i]? = some d) (hexpr : d.expr = some expr)
      (h : Denotes sc d.file (some d.iota) expr v) : Denotes sc file iota (.ident x) v
  | foreign {file : String} {iota : Option Nat} {e : Source.Expr} {y : Valued} {v : Int}
      (hy : sc.foreign? file e = some y) (h : IsInteger y v) : Denotes sc file iota e v

theorem Denotes.unique {sc : Scope} {file : String} {iota : Option Nat} {e : Source.Expr}
    {v w : Int} (h : sc.Denotes file iota e v) (h' : sc.Denotes file iota e w) : v = w := by
  induction h generalizing w with
  | int h =>
      cases h' with
      | int h' => exact congrArg Int.ofNat (h.unique h')
      | foreign hy => cases hy
  | rune htext h =>
      cases h' with
      | rune htext' h' =>
          have hbody := List.append_cancel_right (List.cons.inj (htext.symm.trans htext')).2
          cases hbody
          exact congrArg Int.ofNat (h.unique h')
      | foreign hy => cases hy
  | iota =>
      cases h' with
      | iota => rfl
      | foreign hy => cases hy
  | paren _ ih =>
      cases h' with
      | paren h' => exact ih h'
      | foreign hy => cases hy
  | unary _ hop ih =>
      cases h' with
      | unary h' hop' =>
          cases ih h'
          exact hop.unique hop'
      | foreign hy => cases hy
  | binary _ _ hop ihleft ihright =>
      cases h' with
      | binary hleft' hright' hop' =>
          cases ihleft hleft'
          cases ihright hright'
          exact hop.unique hop'
      | foreign hy => cases hy
  | const hi hd hexpr _ ih =>
      cases h' with
      | const hi' hd' hexpr' h' =>
          cases hi.symm.trans hi'
          cases hd.symm.trans hd'
          cases hexpr.symm.trans hexpr'
          exact ih h'
      | foreign hy => cases (foreign?_of_index hi _).symm.trans hy
  | foreign hy h =>
      cases h' with
      | const hi => cases (foreign?_of_index hi _).symm.trans hy
      | foreign hy' h' =>
          cases hy.symm.trans hy'
          exact h.unique h'
      | _ => cases hy

/-!
# Integer expressions
-/

/-- An expression of integers, `iota` and the given constants, which are known by their numbers.
What comes from outside of it has 128 bits. -/
inductive Integral (sc : Scope) (K : Nat -> Prop) (file : String) (iota : Option Nat) :
    Source.Expr -> Prop where
  | int {x : Source.Extent} {n : Nat}
      (h : Literal.Numeral (Literal.withoutUnderscores x.text) n) : Integral sc K file iota (.int x)
  | rune {x : Source.Extent} {body : List Char} {n : Nat}
      (htext : x.text.toList = '\'' :: body ++ ['\'']) (h : Literal.Quoted body n) :
      Integral sc K file iota (.rune x)
  | iota {x : Source.Extent} (h : forall n, iota = some n -> Constant.fits n = true) :
      Integral sc K file iota (.iota x)
  | paren {x : Source.Extent} {inner : Source.Expr} (h : Integral sc K file iota inner) :
      Integral sc K file iota (.paren x inner)
  | unary {x : Source.Extent} {op : UnaryOp} {operand : Source.Expr}
      (hop : op.isArithmetic = true) (h : Integral sc K file iota operand) :
      Integral sc K file iota (.unary x op operand)
  | binary {x : Source.Extent} {op : BinaryOp} {left right : Source.Expr}
      (hop : op.isArithmetic = true) (hleft : Integral sc K file iota left)
      (hright : Integral sc K file iota right) : Integral sc K file iota (.binary x op left right)
  | const {x : Source.Extent} {i : Nat} (hi : sc.constIndex? x.text = some i) (hK : K i) :
      Integral sc K file iota (.ident x)
  | foreign {e : Source.Expr} {y : Valued} {v : Int} (hy : sc.foreign? file e = some y)
      (h : IsInteger y v) : Integral sc K file iota e

def IntegralConst (sc : Scope) (K : Nat -> Prop) (i : Nat) : Prop :=
  exists d expr, sc.consts[i]? = some d ∧ d.type = none ∧ d.expr = some expr ∧
    sc.Integral K d.file (some d.iota) expr

theorem Integral.mono {sc : Scope} {K L : Nat -> Prop} {file : String} {iota : Option Nat}
    {e : Source.Expr} (h : sc.Integral K file iota e) (hKL : forall i, K i -> L i) :
    sc.Integral L file iota e := by
  induction h with
  | int h => exact .int h
  | rune htext h => exact .rune htext h
  | iota h => exact .iota h
  | paren _ ih => exact .paren ih
  | unary hop _ ih => exact .unary hop ih
  | binary hop _ _ ihleft ihright => exact .binary hop ihleft ihright
  | const hi hK => exact .const hi (hKL _ hK)
  | foreign hy h => exact .foreign hy h

theorem IntegralConst.mono {sc : Scope} {K L : Nat -> Prop} {i : Nat} (h : sc.IntegralConst K i)
    (hKL : forall i, K i -> L i) : sc.IntegralConst L i := by
  obtain ⟨d, expr, hd, htype, hexpr, he⟩ := h
  exact ⟨d, expr, hd, htype, hexpr, he.mono hKL⟩

theorem integralConst_insert {sc : Scope} {K : Nat -> Prop} {i : Nat}
    (hK : forall j, K j -> sc.IntegralConst K j) (hi : sc.IntegralConst K i) :
    forall j, K j ∨ j = i -> sc.IntegralConst (fun j => K j ∨ j = i) j := by
  rintro j (hj | rfl)
  · exact (hK j hj).mono fun _ => Or.inl
  · exact hi.mono fun _ => Or.inl

/-- An untyped integer expression: all constants that it leads to are declared by such
expressions. -/
def IsIntegerExpr (sc : Scope) (file : String) (iota : Option Nat) (e : Source.Expr) : Prop :=
  exists K : Nat -> Prop, (forall i, K i -> sc.IntegralConst K i) ∧ sc.Integral K file iota e

/-!
# Evaluation
-/

theorem untyped_untypedResult {k l : BasicKind} {v : Int}
    (hk : k = .untypedInt ∨ k = .untypedRune) (hl : l = .untypedInt ∨ l = .untypedRune) :
    untypedResult (.int v) k l = .untypedInt ∨ untypedResult (.int v) k l = .untypedRune := by
  rcases hk with rfl | rfl
  · rcases hl with rfl | rfl
    · exact Or.inl rfl
    · exact Or.inr rfl
  · rcases hl with rfl | rfl
    · exact Or.inr rfl
    · exact Or.inr rfl

section Evaluation

variable {sc : Scope} {K : Nat -> Prop} {answers : Answers} {links : Links} {file : String}
  {iota : Option Nat} {e : Source.Expr} {x y z : Valued} {a b v : Int} {p : Progress}

/-- If the result is the value of one of the constants, it is the number that the constant
denotes. -/
def Exact (sc : Scope) (K : Nat -> Prop) : (k : Pending) -> k.Result -> Prop
  | .const i, value => K i -> forall x, value = some x -> exists d expr v,
      sc.consts[i]? = some d ∧ d.expr = some expr ∧ IsInteger x v ∧
        sc.Denotes d.file (some d.iota) expr v
  | .alias _, _ => True
  | .type _, _ => True

theorem exact_nothing (sc : Scope) (K : Nat -> Prop) (k : Pending) : sc.Exact K k k.nothing := by
  match k with
  | .alias _ | .type _ => trivial
  | .const _ =>
      intro _ x hx
      cases hx

def Remembers (sc : Scope) (K : Nat -> Prop) (p : Progress) : Prop :=
  forall k a, p.recalled k = some a -> sc.Exact K k a

def Guides (sc : Scope) (K : Nat -> Prop) (answers : Answers) (links : Links) : Prop :=
  forall k p, sc.Remembers K p -> sc.Exact K k ((links.follow k).outcome answers p).1 ∧
    sc.Remembers K ((links.follow k).outcome answers p).2

theorem carries_remembers (hlinks : sc.Guides K answers links) :
    Carries sc answers links (fun _ => True) fun p q => sc.Remembers K p -> sc.Remembers K q where
  refl _ := id
  trans h h' := h' ∘ h
  complained p file line isSoft complaint _ h k a ha := by
    refine h k a ?_
    match k with
    | .alias _ | .type _ | .const _ => exact ha
  asked p path h k a ha := by
    obtain ⟨packages, hstate⟩ := Resolve.state_packageAt answers path p
    rw [hstate] at ha
    refine h k a ?_
    match k with
    | .alias _ | .type _ | .const _ => exact ha
  followed k p _ h := (hlinks k p h).2

theorem remembers_call (hlinks : sc.Guides K answers links) {α : Type} {F : Links -> Resolve α}
    (hF : sc.Calls F) (hp : sc.Remembers K p) :
    sc.Remembers K ((F links).outcome answers p).2 := by
  obtain ⟨Q, htrail⟩ := hF.exists_trail
  exact ((carries_remembers hlinks).trail htrail p).2 hp

theorem literal_exact {what text : String} {kind : BasicKind} {value : Option Int}
    (hkind : kind = .untypedInt ∨ kind = .untypedRune)
    (hvalue : forall w, value = some w -> w = v ∧ Constant.fits w = true)
    (h : ((literal what text kind (value.map .int)).run.outcome answers p).1 = .ok x) :
    IsInteger x v := by
  cases value with
  | none => cases h
  | some w =>
      cases h
      obtain ⟨rfl, hfits⟩ := hvalue w rfl
      exact isInteger_of_kind hfits hkind

theorem combine_exact {op : BinaryOp} (hop : op.isArithmetic = true) (hx : IsInteger x a)
    (hy : IsInteger y b)
    (h : ((sc.combine links op x y).run.outcome answers p).1 = .ok z) :
    exists c, IsInteger z c ∧ op.Gives a b c := by
  obtain ⟨k, rfl, huntyped, hk⟩ := hx.exists_kind
  obtain ⟨l, rfl, huntyped', hl⟩ := hy.exists_kind
  have hcomparison : op.isComparison = false := by
    cases op with
    | eq | ne | lt | le | gt | ge => cases hop
    | _ => rfl
  unfold combine at h
  dsimp only at h
  cases hresult : Constant.binary op (.int a) (.int b) with
  | error cause =>
      rw [hresult] at h
      cases h
  | ok value =>
      obtain ⟨c, rfl, hfits, hgives⟩ := Constant.intOp_exact hx.fits hy.fits hop hresult
      refine ⟨c, ?_, hgives⟩
      simp only [hresult, hcomparison, isUntyped, GoType.basic?, Option.map_some, Option.getD_some,
        Option.filter_some, huntyped, huntyped', if_true, Bool.false_eq_true, if_false] at h
      split at h
      · cases h
        exact isInteger_of_kind hfits hk
      · cases h
        exact isInteger_of_kind hfits (untyped_untypedResult hk hl)

theorem eval_foreign (hy : sc.foreign? file e = some y) :
    sc.eval links file iota e = pure y := by
  cases e with
  | ident x =>
      rw [eval]
      unfold identConst
      unfold foreign? at hy
      dsimp only at hy
      cases hi : sc.constIndex? x.text with
      | some i =>
          rw [hi] at hy
          cases hy
      | none =>
          rw [hi] at hy
          dsimp only at hy ⊢
          rw [hy]
  | selector x operand field =>
      cases operand with
      | ident label =>
          rw [eval]
          unfold foreign? at hy
          dsimp only at hy ⊢
          cases hconst : sc.qualifiedConst file label.text field.text with
          | ok value =>
              rw [hconst] at hy
              cases hy
              rfl
          | error cause =>
              rw [hconst] at hy
              cases hy
      | _ => cases hy
  | _ => cases hy

theorem eval_exact (hlinks : sc.Guides K answers links) (he : sc.Integral K file iota e)
    (hp : sc.Remembers K p)
    (h : ((sc.eval links file iota e).run.outcome answers p).1 = .ok x) :
    exists v, IsInteger x v ∧ sc.Denotes file iota e v := by
  induction he generalizing x p with
  | @int y n hn =>
      refine ⟨n, ?_, .int hn⟩
      rw [eval] at h
      refine literal_exact (Or.inl rfl) ?_ h
      intro w hw
      rw [Literal.int?_of_numeral hn] at hw
      split at hw
      · next hfits =>
          cases hw
          exact ⟨rfl, hfits⟩
      · cases hw
  | @rune y body n htext hbody =>
      refine ⟨n, ?_, .rune htext hbody⟩
      rw [eval] at h
      refine literal_exact (Or.inr rfl) ?_ h
      intro w hw
      obtain ⟨rfl, hlt⟩ := Literal.rune?_of_quoted htext hbody hw
      exact ⟨rfl, Constant.fits_ofNat_iff.mpr (hlt.trans (by decide))⟩
  | @iota y hfits =>
      cases hiota : iota with
      | none =>
          rw [hiota, eval] at h
          cases h
      | some n =>
          rw [hiota, eval] at h
          cases h
          exact ⟨n, ⟨rfl, hfits n hiota, Or.inl rfl⟩, .iota⟩
  | paren _ ih =>
      rw [eval] at h
      obtain ⟨v, hv, hdenotes⟩ := ih hp h
      exact ⟨v, hv, .paren hdenotes⟩
  | unary hop _ ih =>
      rw [eval] at h
      obtain ⟨⟨value, type⟩, hoperand, h⟩ := ok_of_bind h
      obtain ⟨a, ha, hdenotes⟩ := ih hp hoperand
      cases ha.value
      dsimp only at h
      split at h
      · next hresult =>
          obtain ⟨c, rfl, hfits, hgives⟩ := Constant.unary_exact ha.fits hresult
          cases h
          exact ⟨c, ⟨rfl, hfits, ha.untyped⟩, .unary hdenotes hgives⟩
      · cases h
  | binary hop _ _ ihleft ihright =>
      rw [eval] at h
      obtain ⟨l, hl, h⟩ := ok_of_bind h
      obtain ⟨r, hr, h⟩ := ok_of_bind h
      obtain ⟨a, ha, hleft⟩ := ihleft hp hl
      obtain ⟨b, hb, hright⟩ := ihright (remembers_call hlinks (.eval file iota _) hp) hr
      obtain ⟨c, hc, hgives⟩ := combine_exact hop ha hb h
      exact ⟨c, hc, .binary hleft hright hgives⟩
  | @const y i hi hK =>
      rw [eval] at h
      unfold identConst at h
      rw [hi] at h
      dsimp only at h
      obtain ⟨value, hvalue, h⟩ := ok_of_bind h
      have hexact := (hlinks (.const i) p hp).1 hK
      cases value with
      | none => cases h
      | some value =>
          cases h
          obtain ⟨d, expr, v, hd, hexpr, hv, hdenotes⟩ := hexact x (ok_of_lift hvalue)
          exact ⟨v, hv, .const hi hd hexpr hdenotes⟩
  | @foreign e y v hy hv =>
      rw [eval_foreign hy] at h
      cases h
      exact ⟨v, hv, .foreign hy hv⟩

/-!
# Declarations
-/

theorem eval_of_constBody {d : ConstDecl} (htype : d.type = none) (hexpr : d.expr = some e)
    (h : ((sc.constBody links d).outcome answers p).1 = some x) :
    ((sc.eval links d.file (some d.iota) e).run.outcome answers p).1 = .ok x := by
  unfold constBody at h
  rw [hexpr] at h
  dsimp only at h
  rw [Resolve.outcome_bind] at h
  split at h
  · next value hvalue =>
      cases h
      unfold declaredValue at hvalue
      rw [htype] at hvalue
      obtain ⟨y, hy, h⟩ := ok_of_bind hvalue
      cases h
      exact hy
  · cases h

variable (hK : forall i, K i -> sc.IntegralConst K i)

include hK

theorem saying_exact (hlinks : sc.Guides K answers links) {k : Pending} {d : Saying k.Result}
    (hd : sc.saying? k = some d) (hp : sc.Remembers K p) :
    sc.Exact K k ((d.body links).outcome answers p).1 := by
  match k with
  | .alias _ | .type _ => trivial
  | .const i =>
      obtain ⟨c, hc, rfl⟩ := Option.map_eq_some_iff.mp hd
      intro hi x hx
      obtain ⟨_, expr, hc', htype, hexpr, hintegral⟩ := hK i hi
      cases hc.symm.trans hc'
      obtain ⟨v, hv, hdenotes⟩ :=
        eval_exact hlinks hintegral hp (eval_of_constBody htype hexpr hx)
      exact ⟨c, expr, v, hc, hexpr, hv, hdenotes⟩

/-- Whatever is pending, and however far links lead. -/
theorem guides_linksWithin (answers : Answers) (fuel : Nat) (pending : List Pending) :
    sc.Guides K answers (sc.linksWithin fuel pending) := by
  induction fuel generalizing pending with
  | zero =>
      intro k p hp
      match k with
      | .alias _ | .type _ => exact ⟨trivial, hp⟩
      | .const i => exact ⟨sc.exact_nothing K (.const i), hp⟩
  | succ fuel ih =>
      intro k p hp
      have hguides := ih (k :: pending)
      refine follow_cases (P := fun r => sc.Exact K k r.1 ∧ sc.Remembers K r.2) ?_ ?_ ?_ ?_
      · exact fun a ha => ⟨hp k a ha, hp⟩
      · exact fun _ => ⟨sc.exact_nothing K k, hp⟩
      · intro d _ _
        refine ⟨sc.exact_nothing K k, ?_⟩
        exact (carries_remembers hguides).complained p d.file d.line false trivial hp
      · intro d hd _
        have hexact := saying_exact hK hguides hd hp
        obtain ⟨_, _, _, _, _, htrail⟩ := trail_saying (sc.setting_self fun _ _ => trivial) hd
        have hbody := ((carries_remembers hguides).trail htrail p).2 hp
        exact ⟨hexact, Progress.forall_recalled_record hbody hexact⟩

end Evaluation

/-!
# States of the pass
-/

/-- A state that the second pass comes by: it follows links, whatever is pending, asks for packages
and complains. -/
inductive Reached (sc : Scope) (answers : Answers) (start : Progress) : Progress -> Prop where
  | start : Reached sc answers start start
  | followed {q : Progress} (h : Reached sc answers start q) {k : Pending} (hk : sc.Has k)
      (fuel : Nat) (pending : List Pending) :
      Reached sc answers start (((sc.linksWithin fuel pending).follow k).outcome answers q).2
  | asked {q : Progress} (h : Reached sc answers start q) (path : String) :
      Reached sc answers start ((Resolve.packageAt path).outcome answers q).2
  | complained {q : Progress} (h : Reached sc answers start q) (file : String) (line : Nat)
      (isSoft : Bool) (complaint : Complaint) :
      Reached sc answers start (q.complained file line isSoft complaint)

section Reached

variable {sc : Scope} {K : Nat -> Prop} {answers : Answers} {start q : Progress}

theorem carries_reached (sc : Scope) (answers : Answers) (start : Progress) (fuel : Nat)
    (pending : List Pending) :
    Carries sc answers (sc.linksWithin fuel pending) (fun _ => True)
      fun p q => sc.Reached answers start p -> sc.Reached answers start q where
  refl _ := id
  trans h h' := h' ∘ h
  complained _ file line isSoft complaint _ h := h.complained file line isSoft complaint
  asked _ path h := h.asked path
  followed _ _ hk h := h.followed hk fuel pending

theorem Reached.call (h : sc.Reached answers start q) {α : Type} {F : Links -> Resolve α}
    (hF : sc.Calls F) (fuel : Nat) (pending : List Pending) :
    sc.Reached answers start ((F (sc.linksWithin fuel pending)).outcome answers q).2 := by
  obtain ⟨Q, htrail⟩ := hF.exists_trail
  exact ((carries_reached sc answers start fuel pending).trail htrail q).2 h

theorem Reached.remembers (h : sc.Reached answers start q)
    (hK : forall i, K i -> sc.IntegralConst K i) (hstart : sc.Remembers K start) :
    sc.Remembers K q := by
  induction h with
  | start => exact hstart
  | followed _ hk fuel pending ih => exact (guides_linksWithin hK answers fuel pending _ _ ih).2
  | asked _ path ih =>
      exact (carries_remembers (guides_linksWithin hK answers 0 [])).asked _ path ih
  | complained _ file line isSoft complaint ih =>
      exact (carries_remembers (guides_linksWithin hK answers 0 [])).complained _ file line isSoft
        trivial ih

theorem exists_reached_of_mem (name : String) {c : ConstDef}
    (hc : c ∈ ((sc.definitions name).outcome answers start).1.consts) :
    exists q i d, sc.Reached answers start q ∧ sc.consts[i]? = some d ∧ d.name = c.name ∧
      ((sc.links.const i).outcome answers q).1 = some (c.value, c.type) := by
  have hkept : Kept sc answers sc.links (sc.Reached answers start) :=
    carries_reached sc answers start sc.linkDepth []
  rw [definitions_eq] at hc
  exact (allFound_definitionsWith hkept .start name).exists_const hc

end Reached
end Scope

/-!
# The whole package
-/

/-- What becomes of the untyped integer expressions of a package whose second pass begins in a state
and ends with some constants. -/
structure ExactIntegers (sc : Scope) (answers : Answers) (start : Progress)
    (consts : List ConstDef) : Prop where
  unique : forall {file : String} {iota : Option Nat} {e : Source.Expr} {v w : Int},
    sc.Denotes file iota e v -> sc.Denotes file iota e w -> v = w
  /-- The calls of the pass lead from one of its states to another. -/
  reached : forall {q : Progress}, sc.Reached answers start q ->
    forall {α : Type} {F : Links -> Resolve α}, sc.Calls F ->
    forall (fuel : Nat) (pending : List Pending),
      sc.Reached answers start ((F (sc.linksWithin fuel pending)).outcome answers q).2
  /-- In all of these states, and whatever is pending, a value that is found is exact. -/
  evaluated : forall {q : Progress}, sc.Reached answers start q ->
    forall (fuel : Nat) (pending : List Pending) {file : String} {iota : Option Nat}
      {e : Source.Expr} {x : Valued}, sc.IsIntegerExpr file iota e ->
      ((sc.eval (sc.linksWithin fuel pending) file iota e).run.outcome answers q).1 = .ok x ->
      exists v, IsInteger x v ∧ sc.Denotes file iota e v
  /-- So are the constants that are declared by such expressions, without a type. -/
  recorded : forall c, c ∈ consts -> exists d, d ∈ sc.consts ∧ d.name = c.name ∧
    forall expr, d.type = none -> d.expr = some expr ->
      sc.IsIntegerExpr d.file (some d.iota) expr ->
      exists v, IsInteger (c.value, c.type) v ∧ sc.Denotes d.file (some d.iota) expr v

/-- Untyped integer constants are exact: an evaluation that has a value has the one that the
expression denotes over unbounded integers. -/
theorem exactIntegers_checkGo (p : LoadedPackage) (answers : Answers) :
    ExactIntegers ((collect p).under answers).scope answers ((collect p).under answers).progress
      ((checkGo p).under answers).package.consts := by
  have hstart : forall K, ((collect p).under answers).scope.Remembers K
      ((collect p).under answers).progress := by
    intro K k a ha
    match k with
    | .alias _ | .type _ | .const _ => cases ha
  constructor
  · exact Scope.Denotes.unique
  · exact fun h _ _ hF fuel pending => h.call hF fuel pending
  · rintro q hq fuel pending file iota e x ⟨K, hK, he⟩ hx
    exact Scope.eval_exact (Scope.guides_linksWithin hK answers fuel pending) he
      (hq.remembers hK (hstart K)) hx
  · intro c hc
    rw [under_checkGo] at hc
    obtain ⟨q, i, d, hq, hd, hname, hvalue⟩ := Scope.exists_reached_of_mem p.name hc
    refine ⟨d, List.mem_of_getElem? hd, hname, ?_⟩
    rintro expr htype hexpr ⟨K, hK, he⟩
    -- The constant itself is one more that leads to integer expressions only.
    have hmore := Scope.integralConst_insert hK ⟨d, expr, hd, htype, hexpr, he⟩
    have hguides := Scope.guides_linksWithin hmore answers
      ((collect p).under answers).scope.linkDepth []
    have hexact := (hguides (.const i) q (hq.remembers hmore (hstart _))).1
    obtain ⟨d', expr', v, hd', hexpr', hv, hdenotes⟩ := hexact (Or.inr rfl) _ hvalue
    cases hd.symm.trans hd'
    cases hexpr.symm.trans hexpr'
    exact ⟨v, hv, hdenotes⟩

/-!
# A group of masks
-/

def Source.Extent.word (text : String) : Source.Extent := ⟨0, 0, 3, text⟩

def shiftExpr : Source.Expr :=
  .binary (.word "1 << (iota + 3)") .shiftLeft (.int (.word "1"))
    (.paren (.word "(iota + 3)")
      (.binary (.word "iota + 3") .add (.iota (.word "iota")) (.int (.word "3"))))

def maskExpr : Source.Expr :=
  .binary (.word "^A &^ B | 'a'") .bitOr
    (.binary (.word "^A &^ B") .bitClear
      (.unary (.word "^A") .complement (.ident (.word "A"))) (.ident (.word "B")))
    (.rune (.word "'a'"))

/-- The constants `A` and `B`, the second of which repeats the expression of the first, and a mask
that is made of them. -/
def masksPackage : LoadedPackage :=
  ⟨⟨"/p"⟩, "p", "p", ["a.go"], [("a.go", ⟨[], ⟨[.consts
    [⟨.word "A = 1 << (iota + 3)", [.word "A"], none, some [shiftExpr]⟩,
      ⟨.word "B", [.word "B"], none, none⟩,
      ⟨.word "C = ^A &^ B | 'a'", [.word "C"], none, some [maskExpr]⟩]], [], []⟩⟩)]⟩

def noAnswers : Answers := fun q => .error (.packageNotFound q)

theorem consts_masksPackage : ((collect masksPackage).under noAnswers).scope.consts =
    [⟨"A", "a.go", .word "A = 1 << (iota + 3)", none, some shiftExpr, 0⟩,
      ⟨"B", "a.go", .word "B", none, some shiftExpr, 1⟩,
      ⟨"C", "a.go", .word "C = ^A &^ B | 'a'", none, some maskExpr, 2⟩] := by
  rfl

theorem constIndex_masksPackage (name : String) :
    ((collect masksPackage).under noAnswers).scope.constIndex? name =
      ["A", "B", "C"].findIdx? (· == name) := by
  unfold Scope.constIndex?
  rw [consts_masksPackage]
  rfl

theorem numeral_of_digit {text : String} {c : Char} {d : Nat}
    (htext : Literal.withoutUnderscores text = [c]) (hc : c ≠ '0') (h : Literal.Digit 10 c d) :
    Literal.Numeral (Literal.withoutUnderscores text) d := by
  rw [htext]
  refine .decimal hc ⟨List.cons_ne_nil _ _, [d], .cons h .nil, ?_⟩
  exact Nat.ofDigits_singleton.symm

theorem integral_shiftExpr {sc : Scope} {K : Nat -> Prop} {file : String} {iota : Nat}
    (h : Constant.fits iota = true) : sc.Integral K file (some iota) shiftExpr := by
  have hone : Literal.Numeral (Literal.withoutUnderscores "1") 1 :=
    numeral_of_digit (by decide) (by decide) ⟨by decide, Or.inl rfl⟩
  have hthree : Literal.Numeral (Literal.withoutUnderscores "3") 3 :=
    numeral_of_digit (by decide) (by decide) ⟨by decide, Or.inl rfl⟩
  refine .binary rfl (.int hone) (.paren (.binary rfl (.iota ?_) (.int hthree)))
  rintro n ⟨⟩
  exact h

theorem integralConst_masksPackage {i : Nat} (h : i < 3) :
    ((collect masksPackage).under noAnswers).scope.IntegralConst (fun i => i < 3) i := by
  unfold Scope.IntegralConst
  rw [consts_masksPackage]
  match i, h with
  | 0, _ => exact ⟨_, _, rfl, rfl, rfl, integral_shiftExpr (by decide)⟩
  | 1, _ => exact ⟨_, _, rfl, rfl, rfl, integral_shiftExpr (by decide)⟩
  | 2, _ =>
      refine ⟨_, maskExpr, rfl, rfl, rfl, ?_⟩
      have hrune : "'a'".toList = '\'' :: ['a'] ++ ['\''] := by decide
      exact .binary rfl
        (.binary rfl (.unary rfl (.const (constIndex_masksPackage "A") (by decide)))
          (.const (constIndex_masksPackage "B") (by decide)))
        (.rune hrune (.plain (by decide)))

/-- `A` and `B` are 8 and 16, and the mask is found to be what it denotes. -/
theorem exactIntegers_checkGo_masksPackage :
    ((collect masksPackage).under noAnswers).scope.IsIntegerExpr "a.go" none
        (.ident (.word "C")) ∧
      ((((collect masksPackage).under noAnswers).scope.eval
        ((collect masksPackage).under noAnswers).scope.links "a.go" none
          (.ident (.word "C"))).run.outcome noAnswers
            ((collect masksPackage).under noAnswers).progress).1 =
          .ok (.int (-25), .basic .untypedRune) ∧
      ((collect masksPackage).under noAnswers).scope.Denotes "a.go" none (.ident (.word "C"))
        (-25) := by
  have hexpr : ((collect masksPackage).under noAnswers).scope.IsIntegerExpr "a.go" none
      (.ident (.word "C")) :=
    ⟨fun i => i < 3, fun _ => integralConst_masksPackage,
      .const (constIndex_masksPackage "C") (by decide)⟩
  refine ⟨hexpr, rfl, ?_⟩
  obtain ⟨v, hv, hdenotes⟩ := (exactIntegers_checkGo masksPackage noAnswers).evaluated .start
    ((collect masksPackage).under noAnswers).scope.linkDepth [] hexpr rfl
  cases hv.value
  exact hdenotes

/-- A comma counts as a name, so that of three names the second gets the third value: `B` is 3, and
the sum 13. -/
theorem comma_takes_value :
    ((checkGo (.ofText "package p\n\nconst A, B, C = 1, 2, 3\n\nconst D = B + 10\n")).under
        noAnswers).package.consts.map (fun c => (c.name, c.value.toInt?)) =
      [("A", some 1), (",", some 2), ("B", some 3), ("D", some 13)] := by
  decide +kernel

end GoAtlas
