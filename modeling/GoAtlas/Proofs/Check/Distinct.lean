import GoAtlas.Proofs.Check.Evaluated
import GoAtlas.Proofs.Check.Pending
import GoAtlas.Proofs.Check.Shapes
import GoAtlas.Proofs.Check.Termination
import GoAtlas.Proofs.Check.Values

/-!
# Types without repeated names

In a type that a check finds the fields of a struct have different names, blank ones apart, and so
have the methods of an interface, at any depth.  This holds of what names lead to, if the packages
that the check is told about are like this, and it is kept by all types that are built.
-/

namespace GoAtlas

/-- No two fields of a struct and no two methods of an interface in the type have the same name,
but for blank fields. -/
inductive GoType.Distinct : GoType -> Prop where
  | basic (kind : BasicKind) : Distinct (.basic kind)
  | named (name : TypeName) : Distinct (.named name)
  | pointer {elem : GoType} (h : Distinct elem) : Distinct (.pointer elem)
  | slice {elem : GoType} (h : Distinct elem) : Distinct (.slice elem)
  | array {n : Nat} {elem : GoType} (h : Distinct elem) : Distinct (.array n elem)
  | map {key value : GoType} (hkey : Distinct key) (hvalue : Distinct value) :
      Distinct (.map key value)
  | chan {dir : Direction} {elem : GoType} (h : Distinct elem) : Distinct (.chan dir elem)
  | func {params results : List GoType} {variadic : Bool}
      (hparams : forall t, t ∈ params -> Distinct t)
      (hresults : forall t, t ∈ results -> Distinct t) :
      Distinct (.func ⟨params, results, variadic⟩)
  | struct {fields : List (Field GoType)}
      (hnames : ((fields.map Field.name).filter fun name => !Source.isBlank name).Nodup)
      (htypes : forall f, f ∈ fields -> Distinct f.type) : Distinct (.struct fields)
  | interface {methods : List (InterfaceMethod GoType)} {embedded : List GoType}
      (hnames : (methods.map InterfaceMethod.name).Nodup)
      (hmethods : forall m, m ∈ methods -> Distinct (.func m.signature))
      (hembedded : forall t, t ∈ embedded -> Distinct t) :
      Distinct (.interface methods embedded)

theorem GoType.composes_distinct : Composes GoType.Distinct where
  invalid := .basic .invalid
  pointer := .pointer
  slice := .slice
  array := .array
  map := .map
  chan := .chan
  func := .func
  struct := .struct
  interface := .interface

theorem GoType.distinct_errorInterface : GoType.errorInterface.Distinct := by
  refine .interface (List.nodup_singleton _) ?_ (List.forall_mem_nil _)
  exact List.forall_mem_singleton.mpr
    (.func (List.forall_mem_nil _) (List.forall_mem_singleton.mpr (.basic .string)))

theorem GoType.distinct_emptyInterface : (GoType.interface [] []).Distinct :=
  .interface List.nodup_nil (List.forall_mem_nil _) (List.forall_mem_nil _)

theorem distinct_predeclared {name : String} {type : GoType} (h : predeclared? name = some type) :
    type.Distinct := by
  unfold predeclared? at h
  split at h
  · cases h
    exact .basic _
  · split at h
    · cases h
      exact .named _
    · cases h
      exact GoType.distinct_emptyInterface
    · cases h
      exact .named _
    · cases h

/-!
# Definitions and packages
-/

/-- The methods have different names, and no name is repeated in their types or in the type. -/
structure TypeDef.Distinct (d : TypeDef) : Prop where
  underlying : d.underlying.Distinct
  names : (d.methods.map Method.name).Nodup
  signatures : forall m, m ∈ d.methods -> (GoType.func m.signature).Distinct

theorem TypeDef.Distinct.asType {d : TypeDef} (h : d.Distinct) : d.asType.Distinct := by
  unfold TypeDef.asType
  split
  · exact h.underlying
  · exact .named d.name

structure Package.Distinct (p : Package) : Prop where
  types : forall name d, p.type? name = some d -> d.Distinct
  consts : forall c, c ∈ p.consts -> c.type.Distinct

theorem Package.Distinct.constant? {p : Package} (h : p.Distinct) {name : String} {c : ConstDef}
    (hc : p.constant? name = some c) : c.type.Distinct :=
  h.consts c (List.mem_of_find?_eq_some hc)

structure CheckedPackage.Distinct (p : CheckedPackage) : Prop where
  types : forall d, d ∈ p.types -> d.Distinct
  consts : forall c, c ∈ p.consts -> c.type.Distinct

def Answers.Distinct (answers : Answers) : Prop :=
  forall q p, answers q = .ok p -> p.Distinct

/-- In no package that is imported a name is repeated. -/
structure Scope.Distinct (sc : Scope) : Prop where
  imports : forall file label b package, sc.import? file label = some b ->
    b.package = some package -> package.Distinct
  dots : forall file b package, b ∈ (sc.fileScope file).dots ->
    b.package = some package -> package.Distinct

namespace Scope.Distinct

variable {sc : Scope} {file name : String}

theorem dotType (hsc : sc.Distinct) {type : GoType} (h : sc.dotType? file name = some type) :
    type.Distinct := by
  obtain ⟨_, b, package, d, hb, hpackage, hd, rfl⟩ := exists_of_dotType h
  exact ((hsc.dots file b package hb hpackage).types name d hd).asType

theorem dotConst (hsc : sc.Distinct) {x : Valued} (h : sc.dotConst? file name = some x) :
    x.2.Distinct := by
  obtain ⟨b, package, c, hb, hpackage, hc, rfl⟩ := exists_of_dotConst h
  exact (hsc.dots file b package hb hpackage).constant? hc

theorem qualifiedConst (hsc : sc.Distinct) {label : String} {x : Valued}
    (h : sc.qualifiedConst file label name = .ok x) : x.2.Distinct := by
  obtain ⟨b, package, c, hb, hpackage, hc, rfl⟩ := exists_of_qualifiedConst h
  exact (hsc.imports file label b package hb hpackage).constant? hc

end Scope.Distinct

/-!
# What is settled
-/

/-- The type that is written, with a hard complaint for each name that is repeated in it. -/
def TypeDecl.Written (d : TypeDecl) (errors : List TypeError) (type : GoType) : Prop :=
  d.spec.type.Shapes type ∧
    (Source.typeRepeats d.file d.spec.type).Sublist (hardErrors errors)

theorem TypeDecl.Written.mono {d : TypeDecl} {errors more : List TypeError} {type : GoType}
    (h : d.Written errors type) (hmore : errors <+: more) : d.Written more type :=
  ⟨h.1, h.2.trans (hmore.sublist.filter _)⟩

def TypeDecl.Behind (d : TypeDecl) (errors : List TypeError) (type : GoType) : Prop :=
  exists written, d.Written errors written ∧ (written.name? = none -> type = written)

theorem TypeDecl.Behind.mono {d : TypeDecl} {errors more : List TypeError} {type : GoType}
    (h : d.Behind errors type) (hmore : errors <+: more) : d.Behind more type := by
  obtain ⟨written, hwritten, hsame⟩ := h
  exact ⟨written, hwritten.mono hmore, hsame⟩

namespace Scope

def Pending.Distinct : (k : Pending) -> k.Result -> Prop
  | .alias _, found => found.Distinct
  | .type _, found => found.Distinct
  | .const _, value => forall x, value = some x -> x.2.Distinct

theorem Pending.distinct_nothing (k : Pending) : k.Distinct k.nothing := by
  match k with
  | .alias _ | .type _ => exact .basic .invalid
  | .const _ => exact fun x hx => by cases hx

def Vouches (sc : Scope) (errors : List TypeError) : (k : Pending) -> k.Result -> Prop
  | .alias name, found => forall d, sc.types.get? name = some d -> d.Written errors found
  | .type name, found => forall d, sc.types.get? name = some d -> d.Behind errors found
  | .const _, _ => True

theorem Vouches.mono {sc : Scope} {errors more : List TypeError} {k : Pending} {a : k.Result}
    (h : sc.Vouches errors k a) (hmore : errors <+: more) : sc.Vouches more k a := by
  match k with
  | .alias _ => exact fun d hd => (h d hd).mono hmore
  | .type _ => exact fun d hd => (h d hd).mono hmore
  | .const _ => trivial

/-- What was found so far is that of the declarations, and no name is repeated in it. -/
structure Settled (sc : Scope) (answers : Answers) (p : Progress) : Prop where
  told : p.Told answers
  recalled : forall k a, p.recalled k = some a -> k.Distinct a ∧ sc.Vouches p.errors k a

namespace Settled

variable {sc : Scope} {answers : Answers} {p : Progress}

theorem complained (hp : sc.Settled answers p) (file : String) (line : Nat) (isSoft : Bool)
    (complaint : Complaint) : sc.Settled answers (p.complained file line isSoft complaint) where
  told := hp.told
  recalled k a ha := by
    have hrecalled : p.recalled k = some a := by
      match k with
      | .alias _ | .type _ | .const _ => exact ha
    obtain ⟨hdistinct, hvouches⟩ := hp.recalled k a hrecalled
    exact ⟨hdistinct, hvouches.mono (List.prefix_append _ _)⟩

theorem packageAt (hp : sc.Settled answers p) (path : String) :
    sc.Settled answers ((Resolve.packageAt path).outcome answers p).2 := by
  obtain ⟨packages, heq, htold⟩ := Resolve.outcome_packageAt hp.told path
  rw [heq]
  refine ⟨htold, fun k a ha => hp.recalled k a ?_⟩
  match k with
  | .alias _ | .type _ | .const _ => exact ha

theorem record (hp : sc.Settled answers p) {k : Pending} {a : k.Result} (hdistinct : k.Distinct a)
    (hvouches : sc.Vouches p.errors k a) : sc.Settled answers (p.record k a) where
  told := by
    unfold Progress.Told
    rw [Progress.packages_record]
    exact hp.told
  recalled := by
    rw [Progress.errors_record]
    exact Progress.forall_recalled_record hp.recalled ⟨hdistinct, hvouches⟩

end Settled

/-!
# Passes that settle
-/

structure Settling (answers : Answers) (sc : Scope) (links : Links) : Prop where
  steady : SteadyLinks links
  follow : forall k p, sc.Settled answers p ->
    k.Distinct ((links.follow k).outcome answers p).1 ∧
      sc.Settled answers ((links.follow k).outcome answers p).2

/-- The second state comes after the first: no complaint is lost, and what is settled stays so. -/
structure Later (sc : Scope) (answers : Answers) (p q : Progress) : Prop where
  errors : p.errors <+: q.errors
  settled : sc.Settled answers p -> sc.Settled answers q

section Passes

variable {answers : Answers} {sc : Scope} {links : Links} {p : Progress}

theorem Settling.carries (hlinks : Settling answers sc links) :
    Carries sc answers links (fun _ => True) (sc.Later answers) where
  refl p := ⟨List.prefix_refl _, id⟩
  trans h h' := ⟨h.errors.trans h'.errors, h'.settled ∘ h.settled⟩
  complained p file line isSoft complaint _ :=
    ⟨List.prefix_append _ _, fun hp => hp.complained file line isSoft complaint⟩
  asked p path := ⟨(Resolve.steady_packageAt path answers p).errors, fun hp => hp.packageAt path⟩
  followed k p _ := by
    refine ⟨?_, fun hp => (hlinks.follow k p hp).2⟩
    match k with
    | .alias name => exact (hlinks.steady.aliased name answers p).errors
    | .type name => exact (hlinks.steady.underlying name answers p).errors
    | .const i => exact (hlinks.steady.const i answers p).errors

theorem Settling.later (hlinks : Settling answers sc links) {α : Type}
    {F F' : Links -> Resolve α} {Q : α -> Prop}
    (htrail : Trail sc sc (fun _ _ => True) (fun _ => True) F F' Q) (p : Progress) :
    sc.Later answers p ((F links).outcome answers p).2 :=
  (hlinks.carries.trail htrail p).2

theorem voices_of_later {α : Type} {m : Resolve α} {Q : α -> Prop}
    (h : forall p, sc.Settled answers p ->
      Q (m.outcome answers p).1 ∧ sc.Later answers p (m.outcome answers p).2) :
    Voices answers (sc.Settled answers) m Q [] := by
  intro p hp
  obtain ⟨hresult, hlater⟩ := h p hp
  obtain ⟨added, hadded⟩ := hlater.errors
  exact ⟨hresult, hlater.settled hp, added, hadded.symm, List.nil_sublist _⟩

theorem voices_follow (hlinks : Settling answers sc links) {k : Pending} (hk : sc.Has k) :
    Voices answers (sc.Settled answers) (links.follow k) k.Distinct [] :=
  voices_of_later fun p hp => ⟨(hlinks.follow k p hp).1, hlinks.carries.followed k p hk⟩

theorem voices_complained {α : Type} {Q : α -> Prop} {a : α} (ha : Q a) (file : String)
    (line : Nat) (complaint : Complaint) :
    Voices answers (sc.Settled answers) (do
      Resolve.complain file line complaint
      return a) Q [] :=
  ((Voices.complain (fun _ file line isSoft complaint hp =>
    hp.complained file line isSoft complaint) file line complaint).bind_pure
      fun _ _ => ha).less (List.nil_sublist _)

theorem voices_invalid (file : String) (line : Nat) (complaint : Complaint) :
    Voices answers (sc.Settled answers) (Resolve.invalid file line complaint) GoType.Distinct [] :=
  voices_complained (.basic .invalid) file line complaint

theorem voices_packageAt (hanswers : answers.Distinct) (path : String) :
    Voices answers (sc.Settled answers) (Resolve.packageAt path)
      (fun known => forall package, known = some package -> package.Distinct) [] := by
  refine voices_of_later fun p hp => ⟨?_, ?_⟩
  · obtain ⟨packages, heq, _⟩ := Resolve.outcome_packageAt hp.told path
    rw [heq]
    exact fun package hpackage => hanswers path package (ok_of_toOption hpackage)
  · exact ⟨(Resolve.steady_packageAt path answers p).errors, fun hp => hp.packageAt path⟩

theorem voices_namedType (hsc : sc.Distinct) (hlinks : Settling answers sc links) (file : String)
    (tparams : List String) (x : Source.Extent) :
    Voices answers (sc.Settled answers) (sc.namedType links file tparams x) GoType.Distinct [] := by
  unfold namedType
  dsimp only
  split
  · exact Voices.pure (.named _)
  · split
    · split
      · exact voices_follow (k := .alias x.text) hlinks trivial
      · exact Voices.pure (.named _)
    · split
      · exact voices_invalid _ _ _
      · split
        · next hbuiltin => exact Voices.pure (distinct_predeclared hbuiltin)
        · split
          · next hdot => exact Voices.pure (hsc.dotType hdot)
          · exact voices_invalid _ _ _

theorem voices_qualifiedType (hsc : sc.Distinct) (file : String) (label name : Source.Extent) :
    Voices answers (sc.Settled answers) (sc.qualifiedType file label name) GoType.Distinct [] := by
  unfold qualifiedType
  split
  · exact voices_invalid _ _ _
  · next b hb =>
      split
      · split
        · exact Voices.pure (.basic _)
        · exact voices_invalid _ _ _
      · split
        · exact Voices.pure (.basic .invalid)
        · next package hpackage =>
            split
            · exact voices_invalid _ _ _
            · split
              · exact Voices.pure (.named _)
              · split
                · next d hd =>
                    have hdistinct := (hsc.imports file _ b package hb hpackage).types _ d hd
                    exact Voices.pure hdistinct.asType
                · exact voices_invalid _ _ _

theorem voices_underlyingWithin (hanswers : answers.Distinct) (hlinks : Settling answers sc links)
    (fuel : Nat) {type : GoType} (htype : type.Distinct) :
    Voices answers (sc.Settled answers) (sc.underlyingWithin links fuel type)
      GoType.Distinct [] := by
  induction fuel generalizing type with
  | zero => exact Voices.pure (.basic .invalid)
  | succ fuel ih =>
      cases type with
      | named n =>
          cases n with
          | declared path name =>
              unfold underlyingWithin
              split
              · exact voices_follow (k := .type name) hlinks trivial
              · rw [← List.append_nil []]
                refine (voices_packageAt hanswers path).bind fun known hknown => ?_
                cases known with
                | none => exact Voices.pure (.basic .invalid)
                | some package =>
                    dsimp only
                    cases hd : package.type? name with
                    | none => exact Voices.pure (.basic .invalid)
                    | some d =>
                        have hdistinct := ((hknown package rfl).types name d hd).underlying
                        dsimp only
                        split
                        · exact ih hdistinct
                        · exact Voices.pure hdistinct
          | builtin name =>
              unfold underlyingWithin
              split
              · exact Voices.pure GoType.distinct_errorInterface
              · exact Voices.pure GoType.distinct_emptyInterface
      | _ => exact Voices.pure htype

theorem underlying_of_unnamed {type : GoType} (h : type.name? = none) :
    ((sc.underlying links type).outcome answers p).1 = type := by
  rw [underlying_eq]
  cases type with
  | named n => cases h
  | _ => rfl

theorem voices_underlying (hanswers : answers.Distinct) (hlinks : Settling answers sc links)
    {written : GoType} (hwritten : written.Distinct) :
    Voices answers (sc.Settled answers) (sc.underlying links written)
      (fun type => type.Distinct ∧ (written.name? = none -> type = written)) [] := by
  intro p hp
  obtain ⟨hdistinct, hrest⟩ := voices_underlyingWithin hanswers hlinks chainLimit hwritten p hp
  exact ⟨⟨hdistinct, underlying_of_unnamed⟩, hrest⟩

theorem provides_settled (hsc : sc.Distinct) (hlinks : Settling answers sc links) :
    sc.Provides answers (sc.Settled answers) GoType.Distinct links where
  composes := GoType.composes_distinct
  complained _ file line isSoft complaint hp := hp.complained file line isSoft complaint
  named := voices_namedType hsc hlinks
  qualified := voices_qualifiedType hsc
  evaluated file iota e := by
    have hsetting : sc.Setting sc (fun _ _ => True) (fun _ => True) fun _ _ => True :=
      sc.setting_self fun _ _ => trivial
    exact voices_of_later fun p _ =>
      ⟨trivial, hlinks.later (trail_eval hsetting file iota e fun _ _ => trivial) p⟩

theorem sublist_of_voiced {errors all voiced : List TypeError}
    (h : exists added, all = errors ++ added ∧ voiced.Sublist (hardErrors added)) :
    voiced.Sublist (hardErrors all) := by
  obtain ⟨added, rfl, hvoiced⟩ := h
  unfold hardErrors
  rw [List.filter_append]
  exact hvoiced.trans (List.sublist_append_right _ _)

/-!
# Types of constants
-/

section Values

variable {file : String} {z : Valued}

theorem distinct_literal {what text : String} {kind : BasicKind} {value : Option Constant}
    (h : ((literal what text kind value).run.outcome answers p).1 = .ok z) : z.2.Distinct := by
  cases value with
  | none => cases h
  | some v =>
      cases h
      exact .basic kind

theorem distinct_of_basic {type : GoType} {kind : BasicKind}
    (h : ((sc.underlying links type).outcome answers p).1 = .basic kind) : type.Distinct := by
  cases type with
  | named name => exact .named name
  | basic kind => exact .basic kind
  | _ =>
      rw [underlying_of_unnamed rfl] at h
      cases h

theorem distinct_convertTo {value : Constant} {target : GoType}
    (h : ((sc.convertTo links value target).run.outcome answers p).1 = .ok z) : z.2.Distinct := by
  have hconverts : sc.Converts answers links p value target z := h
  rcases hconverts.unknown_or_convert with ⟨hinvalid | hunknown, rfl⟩ | ⟨_, _, _, _, hkind, _, rfl⟩
  · cases target with
    | basic kind => exact .basic kind
    | _ => cases hinvalid
  · exact distinct_of_basic hunknown
  · exact distinct_of_basic hkind

theorem distinct_assign {x : Valued} {target : GoType}
    (h : ((sc.assign links x target).run.outcome answers p).1 = .ok z) : z.2.Distinct := by
  unfold assign at h
  dsimp only at h
  split at h
  · cases h
  · exact distinct_convertTo h

theorem distinct_combine {op : BinaryOp} {x y : Valued} (hx : x.2.Distinct)
    (h : ((sc.combine links op x y).run.outcome answers p).1 = .ok z) : z.2.Distinct := by
  unfold combine at h
  dsimp only at h
  split at h
  · cases h
  · split at h
    · cases h
      exact .basic _
    · split at h
      · split at h
        · cases h
          exact hx
        · exact distinct_convertTo h
      · split at h
        · cases h
          exact .basic _
        · exact distinct_convertTo h
        · exact distinct_convertTo h
        · split at h
          · exact distinct_convertTo h
          · cases h

theorem distinct_identConst (hsc : sc.Distinct) (hlinks : Settling answers sc links)
    (hp : sc.Settled answers p) {name : String}
    (h : ((sc.identConst links file name).run.outcome answers p).1 = .ok z) : z.2.Distinct := by
  unfold identConst at h
  split at h
  · next i _ =>
      obtain ⟨value, hvalue, h⟩ := ok_of_bind h
      have hconst := (hlinks.follow (.const i) p hp).1
      have hlink : ((links.follow (.const i)).outcome answers p).1 = value := ok_of_lift hvalue
      rw [hlink] at hconst
      cases value with
      | none => cases h
      | some x =>
          cases h
          exact hconst z rfl
  · split at h
    · next x hx =>
        cases h
        exact hsc.dotConst hx
    · cases h

theorem distinct_call {iota : Option Nat} {x : Source.Extent} {function argument : Source.Expr}
    (h : ((sc.eval links file iota (.call x function [argument])).run.outcome answers p).1 =
      .ok z) : z.2.Distinct := by
  rw [eval] at h
  split at h
  · obtain ⟨v, _, h⟩ := ok_of_bind h
    split at h
    · cases h
      exact .basic _
    · cases h
  · obtain ⟨target, _, h⟩ := ok_of_bind h
    cases target with
    | none => cases h
    | some type =>
        obtain ⟨v, _, h⟩ := ok_of_bind h
        exact distinct_convertTo h

theorem distinct_eval (hsc : sc.Distinct) (hlinks : Settling answers sc links) {iota : Option Nat}
    (e : Source.Expr) (hp : sc.Settled answers p) {z : Valued}
    (h : ((sc.eval links file iota e).run.outcome answers p).1 = .ok z) : z.2.Distinct := by
  cases e with
  | int x | float x | rune x | string x =>
      rw [eval] at h
      exact distinct_literal h
  | bool x value =>
      rw [eval] at h
      cases h
      exact .basic _
  | iota x =>
      cases iota with
      | none => cases h
      | some n =>
          cases h
          exact .basic _
  | nil x | imaginary x | other x => cases h
  | ident x =>
      rw [eval] at h
      exact distinct_identConst hsc hlinks hp h
  | paren _ inner =>
      rw [eval] at h
      exact distinct_eval hsc hlinks inner hp h
  | selector x operand field =>
      cases operand with
      | ident label =>
          rw [eval] at h
          exact hsc.qualifiedConst h
      | _ => cases h
  | unary _ op operand =>
      rw [eval] at h
      obtain ⟨v, hv, h⟩ := ok_of_bind h
      have htype := distinct_eval hsc hlinks operand hp hv
      dsimp only at h
      split at h
      · cases h
        exact htype
      · cases h
  | binary _ op left right =>
      rw [eval] at h
      obtain ⟨l, hl, h⟩ := ok_of_bind h
      obtain ⟨r, _, h⟩ := ok_of_bind h
      exact distinct_combine (distinct_eval hsc hlinks left hp hl) h
  | call x function arguments =>
      cases arguments with
      | nil => cases h
      | cons argument rest =>
          cases rest with
          | nil => exact distinct_call h
          | cons _ _ => cases h
  | conversion x type operand =>
      rw [eval] at h
      obtain ⟨target, _, h⟩ := ok_of_bind h
      obtain ⟨v, _, h⟩ := ok_of_bind h
      exact distinct_convertTo h

theorem distinct_constBody (hsc : sc.Distinct) (hlinks : Settling answers sc links) {d : ConstDecl}
    (hp : sc.Settled answers p)
    (h : ((sc.constBody links d).outcome answers p).1 = some z) : z.2.Distinct := by
  unfold constBody at h
  split at h
  · cases h
  · next expr _ =>
      rw [Resolve.outcome_bind] at h
      split at h
      · next value hvalue =>
          cases h
          unfold declaredValue at hvalue
          obtain ⟨x, hx, hvalue⟩ := ok_of_bind hvalue
          split at hvalue
          · cases hvalue
            exact distinct_eval hsc hlinks expr hp hx
          · obtain ⟨target, _, hvalue⟩ := ok_of_bind hvalue
            exact distinct_assign hvalue
      · cases h

end Values

/-!
# All links of a package
-/

theorem settles_body (hanswers : answers.Distinct) (hsc : sc.Distinct)
    (hlinks : Settling answers sc links) {k : Pending} {d : Saying k.Result}
    (hd : sc.saying? k = some d) (hp : sc.Settled answers p) :
    k.Distinct ((d.body links).outcome answers p).1 ∧
      sc.Vouches ((d.body links).outcome answers p).2.errors k
        ((d.body links).outcome answers p).1 := by
  have hprovides := provides_settled hsc hlinks
  match k with
  | .alias name =>
      obtain ⟨t, ht, rfl⟩ := Option.map_eq_some_iff.mp hd
      obtain ⟨hmakes, -, hvoiced⟩ :=
        voices_resolveType hprovides t.file t.spec.params t.spec.type p hp
      refine ⟨hmakes.2, fun t' ht' => ?_⟩
      cases ht.symm.trans ht'
      exact ⟨hmakes.1, sublist_of_voiced hvoiced⟩
  | .type name =>
      obtain ⟨t, ht, rfl⟩ := Option.map_eq_some_iff.mp hd
      have hbody : Voices answers (sc.Settled answers) (sc.typeBody links t) (fun type =>
          type.Distinct ∧ exists written, t.spec.type.Shapes written ∧
            (written.name? = none -> type = written))
          (Source.typeRepeats t.file t.spec.type) := by
        rw [← List.append_nil (Source.typeRepeats t.file t.spec.type)]
        refine (voices_resolveType hprovides t.file t.spec.params t.spec.type).bind ?_
        intro written hmakes
        exact (voices_underlying hanswers hlinks hmakes.2).mono fun type h =>
          ⟨h.1, written, hmakes.1, h.2⟩
      obtain ⟨⟨hdistinct, written, hshapes, hsame⟩, -, hvoiced⟩ := hbody p hp
      refine ⟨hdistinct, fun t' ht' => ?_⟩
      cases ht.symm.trans ht'
      exact ⟨written, ⟨hshapes, sublist_of_voiced hvoiced⟩, hsame⟩
  | .const i =>
      obtain ⟨c, _, rfl⟩ := Option.map_eq_some_iff.mp hd
      exact ⟨fun x hx => distinct_constBody hsc hlinks hp hx, trivial⟩

theorem settling_linksWithin (hanswers : answers.Distinct) (hsc : sc.Distinct) (fuel : Nat)
    (pending : List Pending) : Settling answers sc (sc.linksWithin fuel pending) := by
  -- The links of a declaration have less fuel; what they find is recorded.
  induction fuel generalizing pending with
  | zero =>
      refine ⟨steady_linksWithin sc 0 pending, fun k p hp => ?_⟩
      match k with
      | .alias _ | .type _ => exact ⟨.basic .invalid, hp⟩
      | .const i => exact ⟨Pending.distinct_nothing (.const i), hp⟩
  | succ fuel ih =>
      refine ⟨steady_linksWithin sc (fuel + 1) pending, fun k p hp => ?_⟩
      refine follow_cases (P := fun r => k.Distinct r.1 ∧ sc.Settled answers r.2) ?_ ?_ ?_ ?_
      · exact fun a ha => ⟨(hp.recalled k a ha).1, hp⟩
      · exact fun _ => ⟨k.distinct_nothing, hp⟩
      · exact fun d _ _ => ⟨k.distinct_nothing, hp.complained d.file d.line false d.circular⟩
      · intro d hd _
        obtain ⟨_, _, _, _, _, htrail⟩ := trail_saying (sc.setting_self fun _ _ => trivial) hd
        obtain ⟨hdistinct, hvouches⟩ := settles_body hanswers hsc (ih (k :: pending)) hd hp
        have hbody := ((ih (k :: pending)).later htrail p).settled hp
        exact ⟨hdistinct, hbody.record hdistinct hvouches⟩

theorem settling_links (hanswers : answers.Distinct) (hsc : sc.Distinct) :
    Settling answers sc sc.links :=
  settling_linksWithin hanswers hsc sc.linkDepth []

/-- With nothing pending, a link leads to what its declaration says. -/
theorem vouches_links (hanswers : answers.Distinct) (hsc : sc.Distinct) {k : Pending}
    {d : Saying k.Result} (hd : sc.saying? k = some d) (hp : sc.Settled answers p) :
    sc.Vouches ((sc.links.follow k).outcome answers p).2.errors k
      ((sc.links.follow k).outcome answers p).1 := by
  have hfollow : (sc.links.follow k).outcome answers p =
      ((sc.linksWithin (2 * sc.types.size + sc.consts.length + 1) []).follow k).outcome answers p :=
    rfl
  rw [hfollow]
  refine follow_cases (P := fun r => sc.Vouches r.2.errors k r.1) ?_ ?_ ?_ ?_
  · exact fun a ha => (hp.recalled k a ha).2
  · exact fun hnone => by cases hd.symm.trans hnone
  · exact fun _ _ hmem => absurd hmem List.not_mem_nil
  · intro d hd _
    rw [Progress.errors_record]
    exact (settles_body hanswers hsc (settling_linksWithin hanswers hsc _ [k]) hd hp).2

end Passes

end Scope
end GoAtlas
