import GoAtlas.Proofs.Check.Accounting
import GoAtlas.Proofs.Check.Evaluated
import GoAtlas.Proofs.Check.Found
import GoAtlas.Proofs.Check.Termination
import GoAtlas.Proofs.Check.Undotted
import GoAtlas.Proofs.Check.Visibility
import GoAtlas.Proofs.Source.ExpressionNames

/-!
# Types of constants

The type of a constant is basic, or it was written behind a qualifier, found in another package, or
declared in the package itself.  So no declared name in it has a dot, just as in the types
themselves.
-/

namespace GoAtlas

/-!
# Constants in the sources
-/

structure PlainConst (type : Option Source.TypeExpr) (expr : Option Source.Expr) : Prop where
  type : forall e, type = some e -> Source.PlainNames e
  expr : forall e, expr = some e -> Source.PlainExpr e

structure PlainLine (line : Option Source.TypeExpr × List Source.Expr) : Prop where
  type : forall e, line.1 = some e -> Source.PlainNames e
  values : forall e, e ∈ line.2 -> Source.PlainExpr e

theorem plainLine_repeated {last : Option (Option Source.TypeExpr × List Source.Expr)}
    (hlast : forall line, last = some line -> PlainLine line) {spec : Source.ConstSpec}
    (hspec : Source.PlainConsts spec) : PlainLine (Collect.repeated last spec) := by
  obtain ⟨x, names, type, values⟩ := spec
  cases values with
  | some values => exact ⟨hspec.type, hspec.values values rfl⟩
  | none =>
      cases type with
      | some type => exact ⟨hspec.type, List.forall_mem_nil _⟩
      | none =>
          cases last with
          | some line => exact hlast line rfl
          | none => exact ⟨hspec.type, List.forall_mem_nil _⟩

namespace Item

variable {file : String} {x spec : Source.Extent} {type : Option Source.TypeExpr}
  {expr : Option Source.Expr} {iota : Nat}

theorem claim_notMem_arityFaults {other : String} {what : Claim} (line : Source.ConstSpec)
    (values : List Source.Expr) : claim other x what ∉ arityFaults file line values := by
  intro h
  unfold arityFaults at h
  split at h
  · cases List.mem_singleton.mp h
  · split at h
    · cases List.mem_singleton.mp h
    · cases h

theorem plain_of_mem_ofConstNames {line : Source.Extent}
    {written : Option Source.TypeExpr × List Source.Expr} (hwritten : PlainLine written)
    {number : Nat} {names : List Source.Extent}
    (h : claim file x (.const spec type expr iota) ∈
      ofConstNames file line written.1 number names written.2) : PlainConst type expr := by
  obtain ⟨typeOf, values⟩ := written
  induction names generalizing values with
  | nil => cases h
  | cons y names ih =>
      rcases List.mem_cons.mp h with heq | hrest
      · cases heq
        exact ⟨hwritten.type, fun e he => hwritten.values e (List.mem_of_mem_head? he)⟩
      · refine ih values.tail ⟨hwritten.type, ?_⟩ hrest
        exact fun e he => hwritten.values e (List.mem_of_mem_tail he)

theorem plain_of_mem_ofConstSpecs {specs : List Source.ConstSpec}
    {last : Option (Option Source.TypeExpr × List Source.Expr)} {number : Nat}
    (hlast : forall line, last = some line -> PlainLine line)
    (hspecs : forall s, s ∈ specs -> Source.PlainConsts s)
    (h : claim file x (.const spec type expr iota) ∈ ofConstSpecs file last number specs) :
    PlainConst type expr := by
  induction specs generalizing last number with
  | nil => cases h
  | cons s rest ih =>
      obtain ⟨hfirst, hrest⟩ := List.forall_mem_cons.mp hspecs
      have hline := plainLine_repeated hlast hfirst
      rw [ofConstSpecs] at h
      generalize Collect.repeated last s = line at h hline
      dsimp only at h
      rcases List.mem_append.mp h with hfront | hback
      · rcases List.mem_append.mp hfront with hfault | hname
        · exact absurd hfault (claim_notMem_arityFaults s line.2)
        · exact plain_of_mem_ofConstNames hline hname
      · refine ih ?_ hrest hback
        intro line heq
        split at heq
        next values hvalues =>
          cases heq
          exact ⟨hfirst.type, hfirst.values values hvalues⟩
        · exact hlast line heq

theorem plain_of_mem_ofDecl {other : String} {d : Source.Decl}
    (hd : Source.Grammar.EachConst Source.PlainConsts d)
    (h : claim other x (.const spec type expr iota) ∈ ofDecl file d) : PlainConst type expr := by
  cases ofDecl_of_mem h with
  | const hi =>
      have hfile : other = file := by
        cases ofConsts_of_mem hi with
        | claim => rfl
      subst hfile
      exact plain_of_mem_ofConstSpecs (fun _ hlast => by cases hlast) (hd _ rfl) hi

end Item

theorem plain_of_mem_constants {t : FileTree} {tests : Bool} {dir : Path} {path : String}
    {p : LoadedPackage} (hload : Loading.load t tests dir path = .ok p) {d : ConstDecl}
    (hd : d ∈ p.constants) : PlainConst d.type d.expr := by
  obtain ⟨x, hx, hconst⟩ := List.mem_filterMap.mp hd
  have hitem := LoadedPackage.mem_items_of_claimed hx
  unfold TopDeclaration.const? at hconst
  split at hconst
  next spec type expr iota hwhat =>
    cases hconst
    rw [hwhat] at hitem
    obtain ⟨f, hf, hmem⟩ := List.mem_flatMap.mp hitem
    obtain ⟨bytes, hread⟩ := read_of_mem_checkedFiles hload hf
    unfold Item.ofFile at hmem
    rcases List.mem_cons.mp hmem with heq | hdecls
    · cases heq
    · obtain ⟨decl, hdecl, hclaim⟩ := List.mem_flatMap.mp hdecls
      exact Item.plain_of_mem_ofDecl (Source.File.plainConsts_of_read hread hdecl) hclaim
  · cases hconst

/-!
# States and scopes without dots
-/

/-- Types that constants have: they are basic, or declared under a name without a dot. -/
inductive GoType.OfConst : GoType -> Prop where
  | basic (kind : BasicKind) : OfConst (.basic kind)
  | declared (package : String) {name : String} (h : Source.Plain name) :
      OfConst (.named (.declared package name))

theorem GoType.OfConst.undotted {type : GoType} (h : type.OfConst) : type.Undotted := by
  cases h with
  | basic kind =>
      by_cases hkind : kind = .invalid
      · rw [hkind]
        exact undotted_invalid
      · exact within_basic hkind
  | declared package hname => exact within_declared_iff.mpr hname

/-- No declared name in its types has a dot, and constants have types of their kind. -/
structure Package.AllUndotted (p : Package) : Prop where
  types : p.Undotted
  consts : forall c, c ∈ p.consts -> c.type.OfConst

theorem Package.AllUndotted.constant? {package : Package} (h : package.AllUndotted) {name : String}
    {c : ConstDef} (hc : package.constant? name = some c) : c.type.OfConst :=
  h.consts c (List.mem_of_find?_eq_some hc)

/-- A type without dots in its names, or a value with a type of constants. -/
def Scope.Pending.Undotted : (k : Pending) -> k.Result -> Prop
  | .alias _, found => found.Undotted
  | .type _, found => found.Undotted
  | .const _, value => forall x, value = some x -> x.2.OfConst

theorem Scope.Pending.undotted_nothing (k : Pending) : k.Undotted k.nothing := by
  match k with
  | .alias _ | .type _ => exact undotted_invalid
  | .const _ => exact fun x hx => by cases hx

/-- What was found so far has no dots in its names, values included. -/
structure Progress.AllUndotted (p : Progress) : Prop where
  packages : forall path package, p.packages.get? path = some (some package) -> package.Undotted
  recalled : forall k a, p.recalled k = some a -> k.Undotted a

theorem Progress.AllUndotted.undotted {p : Progress} (h : p.AllUndotted) : p.Undotted where
  packages := h.packages
  aliases name := h.recalled (.alias name)
  underlying name := h.recalled (.type name)

theorem Progress.AllUndotted.complained {p : Progress} (hp : p.AllUndotted) (file : String)
    (line : Nat) (isSoft : Bool) (complaint : Complaint) :
    (p.complained file line isSoft complaint).AllUndotted where
  packages := hp.packages
  recalled k a ha := by
    refine hp.recalled k a ?_
    match k with
    | .alias _ | .type _ | .const _ => exact ha

theorem Progress.AllUndotted.packageAt {p : Progress} (hp : p.AllUndotted) {answers : Answers}
    (hanswers : answers.Undotted) (path : String) :
    ((Resolve.packageAt path).outcome answers p).2.AllUndotted where
  packages := (neat_packageAt hanswers path p hp.undotted).2.packages
  recalled k a ha := by
    obtain ⟨packages, hstate⟩ := Resolve.state_packageAt answers path p
    rw [hstate] at ha
    refine hp.recalled k a ?_
    match k with
    | .alias _ | .type _ | .const _ => exact ha

namespace Scope

/-- Nothing that an expression of the scope leads to has a dot in its names. -/
structure AllUndotted (sc : Scope) : Prop where
  undotted : sc.Undotted
  imports : forall file label b package, sc.import? file label = some b ->
    b.package = some package -> package.AllUndotted
  dots : forall file b package, b ∈ (sc.fileScope file).dots ->
    b.package = some package -> package.AllUndotted
  consts : forall d, d ∈ sc.consts -> PlainConst d.type d.expr

/-- Links that keep dots out of values as well. -/
structure AllNeat (answers : Answers) (sc : Scope) (links : Links) : Prop where
  neat : NeatLinks answers sc links
  follow : forall k p, p.AllUndotted -> k.Undotted ((links.follow k).outcome answers p).1 ∧
    ((links.follow k).outcome answers p).2.AllUndotted

section Values

variable {answers : Answers} {sc : Scope} {links : Links} {file : String} {p : Progress}

theorem AllUndotted.dotConst (hsc : sc.AllUndotted) {name : String} {x : Valued}
    (h : sc.dotConst? file name = some x) : x.2.OfConst := by
  obtain ⟨b, package, c, hb, hpackage, hc, rfl⟩ := exists_of_dotConst h
  exact (hsc.dots file b package hb hpackage).constant? hc

theorem AllUndotted.qualifiedConst (hsc : sc.AllUndotted) {label name : String} {x : Valued}
    (h : sc.qualifiedConst file label name = .ok x) : x.2.OfConst := by
  obtain ⟨b, package, c, hb, hpackage, hc, rfl⟩ := exists_of_qualifiedConst h
  exact (hsc.imports file label b package hb hpackage).constant? hc

theorem AllUndotted.qualifiedTarget (hsc : sc.AllUndotted) {label name : String} {type : GoType}
    (hname : Source.Plain name) (h : sc.qualifiedTarget? file label name = some type) :
    type.Undotted := by
  obtain ⟨b, package, hb, hpackage, hfound⟩ := exists_of_qualifiedTarget h
  rcases hfound with ⟨_, _, rfl⟩ | ⟨d, hd, rfl⟩
  · exact GoType.within_declared_iff.mpr hname
  · exact ((hsc.imports file label b package hb hpackage).types name d hd).asType

/-!
# Values of expressions
-/

theorem ofConst_literal {what text : String} {kind : BasicKind} {value : Option Constant}
    {z : Valued} (h : ((literal what text kind value).run.outcome answers p).1 = .ok z) :
    z.2.OfConst := by
  cases value with
  | none => cases h
  | some v =>
      cases h
      exact .basic kind

theorem ofConst_of_underlying {type : GoType} (htype : type.Undotted) {kind : BasicKind}
    (h : ((sc.underlying links type).outcome answers p).1 = .basic kind) : type.OfConst := by
  rw [underlying_eq] at h
  cases type with
  | basic kind => exact .basic kind
  | named n =>
      cases n with
      | declared package name => exact .declared package (GoType.within_declared_iff.mp htype)
      | builtin name =>
          unfold underlyingWithin at h
          split at h
          · cases h
          · cases h
  | _ => cases h

theorem ofConst_convertTo {value : Constant} {target : GoType} (htarget : target.Undotted)
    {z : Valued} (h : ((sc.convertTo links value target).run.outcome answers p).1 = .ok z) :
    z.2.OfConst := by
  have hconverts : sc.Converts answers links p value target z := h
  rcases hconverts.unknown_or_convert with ⟨hinvalid | hunknown, rfl⟩ | ⟨_, _, _, _, hkind, _, rfl⟩
  · cases target with
    | basic kind => exact .basic kind
    | _ => cases hinvalid
  · exact ofConst_of_underlying htarget hunknown
  · exact ofConst_of_underlying htarget hkind

theorem ofConst_assign {x z : Valued} {target : GoType} (htarget : target.Undotted)
    (h : ((sc.assign links x target).run.outcome answers p).1 = .ok z) : z.2.OfConst := by
  unfold assign at h
  dsimp only at h
  split at h
  · cases h
  · exact ofConst_convertTo htarget h

theorem ofConst_combine {op : BinaryOp} {x y z : Valued} (hx : x.2.OfConst) (hy : y.2.OfConst)
    (h : ((sc.combine links op x y).run.outcome answers p).1 = .ok z) : z.2.OfConst := by
  unfold combine at h
  dsimp only at h
  split at h
  · cases h
  · split at h
    · cases h
      exact .basic _
    · split at h
      · split at h
        · cases h
          exact hx
        · exact ofConst_convertTo hx.undotted h
      · split at h
        · cases h
          exact .basic _
        · exact ofConst_convertTo hy.undotted h
        · exact ofConst_convertTo hx.undotted h
        · split at h
          · exact ofConst_convertTo hx.undotted h
          · cases h

section Expressions

variable (hanswers : answers.Undotted) (hsc : sc.AllUndotted) (hlinks : AllNeat answers sc links)

include hanswers hlinks

theorem AllNeat.kept : Kept sc answers links Progress.AllUndotted :=
  .of_steps (fun _ file line isSoft complaint hp => hp.complained file line isSoft complaint)
    (fun _ path hp => hp.packageAt hanswers path) fun k p _ hp => (hlinks.follow k p hp).2

theorem AllNeat.call {α : Type} {F : Links -> Resolve α} (hF : sc.Calls F)
    (hp : p.AllUndotted) : ((F links).outcome answers p).2.AllUndotted := by
  obtain ⟨Q, htrail⟩ := hF.exists_trail
  exact (AllNeat.kept hanswers hlinks).trail htrail hp

omit hanswers in
include hsc in
theorem ofConst_identConst (hp : p.AllUndotted) {name : String} {z : Valued}
    (h : ((sc.identConst links file name).run.outcome answers p).1 = .ok z) : z.2.OfConst := by
  unfold identConst at h
  split at h
  next i _ =>
    obtain ⟨value, hvalue, h⟩ := ok_of_bind h
    have hconst := (hlinks.follow (.const i) p hp).1
    have hlink : ((links.follow (.const i)).outcome answers p).1 = value := ok_of_lift hvalue
    rw [hlink] at hconst
    cases value with
    | none => cases h
    | some x =>
        cases h
        exact hconst z rfl
  · split at h
    next x hx =>
      cases h
      exact hsc.dotConst hx
    · cases h

omit hanswers in
include hsc in
theorem undotted_conversionTarget {e : Source.Expr} (he : Source.PlainExpr e)
    (hp : p.AllUndotted) {type : GoType}
    (h : ((sc.conversionTarget links file e).outcome answers p).1 = some type) :
    type.Undotted := by
  induction he with
  | ident x =>
      unfold conversionTarget identTarget at h
      split at h
      · rw [Resolve.outcome_bind] at h
        cases h
        exact (neat_namedType hsc.undotted hlinks.neat file [] x p hp.undotted).1
      · split at h
        · cases h
        · split at h
          next hbuiltin =>
            cases h
            exact within_predeclared hbuiltin
          · exact hsc.undotted.dotType h
  | selector hname => exact hsc.qualifiedTarget hname h
  | paren _ ih => exact ih h
  | _ => cases h

omit hanswers in
include hsc in
theorem ofConst_call {iota : Option Nat} {x : Source.Extent} {function argument : Source.Expr}
    (hfunction : Source.PlainExpr function) (hp : p.AllUndotted) {z : Valued}
    (h : ((sc.eval links file iota (.call x function [argument])).run.outcome answers p).1 =
      .ok z) : z.2.OfConst := by
  rw [eval] at h
  split at h
  · obtain ⟨v, _, h⟩ := ok_of_bind h
    split at h
    · cases h
      exact .basic _
    · cases h
  · obtain ⟨target, htarget, h⟩ := ok_of_bind h
    cases target with
    | none => cases h
    | some type =>
        obtain ⟨v, _, h⟩ := ok_of_bind h
        exact ofConst_convertTo
          (undotted_conversionTarget hsc hlinks hfunction hp (ok_of_lift htarget)) h

include hsc in
theorem ofConst_conversion {iota : Option Nat} {x : Source.Extent} {type : Source.TypeExpr}
    {operand : Source.Expr} (htype : Source.PlainNames type) (hp : p.AllUndotted) {z : Valued}
    (h : ((sc.eval links file iota (.conversion x type operand)).run.outcome answers p).1 =
      .ok z) : z.2.OfConst := by
  rw [eval] at h
  obtain ⟨target, htarget, h⟩ := ok_of_bind h
  obtain ⟨v, _, h⟩ := ok_of_bind h
  have hneat := neat_resolveType ⟨hanswers, hsc.undotted, hlinks.neat⟩ file [] type htype p
    hp.undotted
  rw [ok_of_lift htarget] at hneat
  exact ofConst_convertTo hneat.1 h

include hsc in
theorem ofConst_eval {iota : Option Nat} {e : Source.Expr} (he : Source.PlainExpr e)
    (hp : p.AllUndotted) {z : Valued}
    (h : ((sc.eval links file iota e).run.outcome answers p).1 = .ok z) : z.2.OfConst := by
  induction he generalizing p z with
  | int x | float x | rune x | string x =>
      rw [eval] at h
      exact ofConst_literal h
  | bool x value =>
      rw [eval] at h
      cases h
      exact .basic _
  | iota x =>
      cases iota with
      | none => cases h
      | some n =>
          cases h
          exact .basic _
  | nil x | imaginary x | other x => cases h
  | ident x =>
      rw [eval] at h
      exact ofConst_identConst hsc hlinks hp h
  | paren _ ih =>
      rw [eval] at h
      exact ih hp h
  | @selector x operand field _ =>
      cases operand with
      | ident label =>
          rw [eval] at h
          exact hsc.qualifiedConst h
      | _ => cases h
  | unary _ ih =>
      rw [eval] at h
      obtain ⟨v, hv, h⟩ := ok_of_bind h
      have htype := ih hp hv
      dsimp only at h
      split at h
      · cases h
        exact htype
      · cases h
  | @binary x op left right _ _ ihleft ihright =>
      rw [eval] at h
      obtain ⟨l, hl, h⟩ := ok_of_bind h
      obtain ⟨r, hr, h⟩ := ok_of_bind h
      have hmid := AllNeat.call hanswers hlinks (.eval file iota left) hp
      exact ofConst_combine (ihleft hp hl) (ihright hmid hr) h
  | @call x function arguments hfunction _ _ _ =>
      cases arguments with
      | nil => cases h
      | cons argument rest =>
          cases rest with
          | cons _ _ => cases h
          | nil => exact ofConst_call hsc hlinks hfunction hp h
  | conversion htype _ _ => exact ofConst_conversion hanswers hsc hlinks htype hp h

include hsc in
theorem ofConst_constBody {d : ConstDecl} (hd : d ∈ sc.consts) (hp : p.AllUndotted) {z : Valued}
    (h : ((sc.constBody links d).outcome answers p).1 = some z) : z.2.OfConst := by
  have hplain := hsc.consts d hd
  unfold constBody at h
  split at h
  · cases h
  next expr hexpr =>
    rw [Resolve.outcome_bind] at h
    split at h
    next value hvalue =>
      cases h
      unfold declaredValue at hvalue
      obtain ⟨x, hx, hvalue⟩ := ok_of_bind hvalue
      split at hvalue
      · cases hvalue
        exact ofConst_eval hanswers hsc hlinks (hplain.expr expr hexpr) hp hx
      next type htype =>
        obtain ⟨target, htarget, hvalue⟩ := ok_of_bind hvalue
        have hmid := AllNeat.call hanswers hlinks (.eval d.file (some d.iota) expr) hp
        have hneat := neat_resolveType ⟨hanswers, hsc.undotted, hlinks.neat⟩ d.file [] type
          (hplain.type type htype) _ hmid.undotted
        rw [ok_of_lift htarget] at hneat
        exact ofConst_assign hneat.1 hvalue
    · cases h

end Expressions

/-!
# All links of a package
-/

theorem NeatLinks.undotted (h : NeatLinks answers sc links) {k : Pending} (hp : p.Undotted)
    (hconst : forall i, k = .const i -> k.Undotted ((links.follow k).outcome answers p).1) :
    k.Undotted ((links.follow k).outcome answers p).1 := by
  match k with
  | .alias name => exact (h.aliased name p hp).1
  | .type name => exact (h.underlying name p hp).1
  | .const i => exact hconst i rfl

theorem allNeat_linksWithin (hanswers : answers.Undotted) (hsc : sc.AllUndotted) (fuel : Nat)
    (pending : List Pending) : AllNeat answers sc (sc.linksWithin fuel pending) := by
  -- The links of a declaration have less fuel; what they find is recorded.
  induction fuel generalizing pending with
  | zero =>
      refine ⟨neatLinks_linksWithin hanswers hsc.undotted 0 pending, ?_⟩
      intro k p hp
      match k with
      | .alias _ | .type _ => exact ⟨undotted_invalid, hp⟩
      | .const i => exact ⟨Pending.undotted_nothing (.const i), hp⟩
  | succ fuel ih =>
      have hneat := neatLinks_linksWithin hanswers hsc.undotted (fuel + 1) pending
      refine ⟨hneat, ?_⟩
      intro k p hp
      have hresult : k.Undotted (((sc.linksWithin (fuel + 1) pending).follow k).outcome answers
          p).1 := by
        refine hneat.undotted hp.undotted ?_
        rintro i rfl
        refine follow_cases (P := fun r => Pending.Undotted (.const i) r.1) ?_ ?_ ?_ ?_
        · exact fun a ha => hp.recalled (.const i) a ha
        · exact fun _ => Pending.undotted_nothing (.const i)
        · exact fun _ _ _ => Pending.undotted_nothing (.const i)
        · intro d hd _ x hx
          obtain ⟨decl, hdecl, rfl⟩ := Option.map_eq_some_iff.mp hd
          exact ofConst_constBody hanswers hsc (ih _) (List.mem_of_getElem? hdecl) hp hx
      refine ⟨hresult, ?_⟩
      revert hresult
      refine follow_cases (P := fun r => k.Undotted r.1 -> r.2.AllUndotted) ?_ ?_ ?_ ?_
      · exact fun _ _ _ => hp
      · exact fun _ _ => hp
      · exact fun d _ _ _ => hp.complained d.file d.line false d.circular
      · intro d hd _ hresult
        obtain ⟨_, _, _, _, _, htrail⟩ := trail_saying (sc.setting_self fun _ _ => trivial) hd
        have hbody := (AllNeat.kept hanswers (ih (k :: pending))).trail htrail hp
        refine ⟨?_, Progress.forall_recalled_record hbody.recalled hresult⟩
        match k with
        | .alias _ | .type _ | .const _ => exact hbody.packages

end Values
end Scope

/-!
# The whole check
-/

section Checks

variable {t : FileTree} {tests : Bool} {dir : Path} {path : String} {p : LoadedPackage}
  {answers : Answers}

def Answers.AllUndotted (answers : Answers) : Prop :=
  forall q p, answers q = .ok p -> p.AllUndotted

theorem allUndotted_scope (hanswers : answers.AllUndotted)
    (hload : Loading.load t tests dir path = .ok p) :
    ((collect p).under answers).scope.AllUndotted := by
  have hlike := answers.like_refl (((collect p).under answers).scope.Exposed answers)
  have htwins := (Collection.twins_collect p hlike).scope
  have hundotted : answers.Undotted := fun q package hq => (hanswers q package hq).types
  constructor
  · exact undotted_scope hundotted hload
  · intro file label b package hb hpackage
    exact hanswers b.path package (htwins.answer_of_import hlike hb hpackage)
  · intro file b package hb hpackage
    exact hanswers b.path package (htwins.answer_of_dot hlike hb hpackage)
  · intro d hd
    rw [consts_collect] at hd
    exact plain_of_mem_constants hload hd

theorem ofConst_of_mem_consts (hanswers : answers.AllUndotted)
    (hload : Loading.load t tests dir path = .ok p) {c : ConstDef}
    (hc : c ∈ ((checkGo p).under answers).package.consts) : c.type.OfConst := by
  have hundotted : answers.Undotted := fun q package hq => (hanswers q package hq).types
  have hlinks : Scope.AllNeat answers ((collect p).under answers).scope
      ((collect p).under answers).scope.links :=
    Scope.allNeat_linksWithin hundotted (allUndotted_scope hanswers hload) _ []
  have hstart : ((collect p).under answers).progress.AllUndotted := by
    refine ⟨(Collection.undotted_collect hundotted p).packages, ?_⟩
    intro k a ha
    match k with
    | .alias _ | .type _ | .const _ => cases ha
  have hfound := Scope.allFound_definitionsWith (Scope.AllNeat.kept hundotted hlinks) hstart p.name
  rw [under_checkGo] at hc
  obtain ⟨q, i, d, hq, _, _, hvalue⟩ := hfound.exists_const hc
  exact (hlinks.follow (.const i) q hq).1 _ hvalue

theorem ofConst_of_asked (hload : Loading.load t tests dir path = .ok p)
    (hasked : forall q package, q ∈ (checkGo p).asked answers -> answers q = .ok package ->
      package.AllUndotted)
    {c : ConstDef} (hc : c ∈ ((checkGo p).under answers).package.consts) : c.type.OfConst := by
  classical
  let other : Answers := fun q =>
    if q ∈ (checkGo p).asked answers then answers q else .error (.packageNotFound q)
  have hsame := Inquiry.under_congr answers other (checkGo p) fun q hq => if_pos hq
  have hother : other.AllUndotted := by
    intro q package hq
    by_cases hmem : q ∈ (checkGo p).asked answers
    · exact hasked q package hmem ((if_pos hmem).symm.trans hq)
    · cases (if_neg hmem).symm.trans hq
  exact ofConst_of_mem_consts hother hload (hsame.1.symm ▸ hc)

end Checks
end GoAtlas
