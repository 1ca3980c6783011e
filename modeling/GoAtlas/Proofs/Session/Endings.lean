import GoAtlas.Proofs.Session.Implementers
import GoAtlas.Proofs.Session.Nesting
import GoAtlas.Proofs.Session.Unbounded

/-!
# Every search ends

Whether a type implements an interface, and which indexed types do, is told in steps without a
bound.  These questions end where the searches for methods do, and nothing but an alias that is
defined through itself could keep one from its end.  The Go checker leaves no such alias in a
session.
-/

namespace GoAtlas
namespace Session

variable {s : Session}

/-!
# Satisfaction
-/

def covers (methods required : MethodSet) : Bool :=
  required.entries.all fun (name, signature) =>
    match methods.get? name with
    | some found => found == signature
    | none => false

theorem satisfies_eq (s : Session) (type : GoType) (required : MethodSet) :
    s.satisfies type required = covers (s.methodSet type) required := rfl

/-- The question whether a type or a pointer to it has the methods of an interface. -/
inductive Decides (s : Session) (type iface : GoType) : Except Error Bool -> Prop
  | notInterface (hlays : s.Lays iface none) :
      Decides s type iface (.error (.notInterface iface.text))
  | same {required : MethodSet} (hlays : s.Lays iface (some required))
      (hsame : (type == iface) = true) : Decides s type iface (.ok true)
  | value {required methods : MethodSet} (hlays : s.Lays iface (some required))
      (hother : (type == iface) = false) (hgathers : s.Gathers type methods)
      (hcovers : covers methods required = true) : Decides s type iface (.ok true)
  | noPointer {required methods : MethodSet} {elem : GoType} (hlays : s.Lays iface (some required))
      (hother : (type == iface) = false) (hgathers : s.Gathers type methods)
      (hmissing : covers methods required = false) (hpointer : type = .pointer elem) :
      Decides s type iface (.ok false)
  | pointer {required methods methods' : MethodSet} (hlays : s.Lays iface (some required))
      (hother : (type == iface) = false) (hgathers : s.Gathers type methods)
      (hmissing : covers methods required = false) (hvalue : forall elem, type ≠ .pointer elem)
      (hgathers' : s.Gathers (.pointer type) methods') :
      Decides s type iface (.ok (covers methods' required))

theorem decides_iff (hunlooped : s.Unlooped) {type iface : GoType} {answer : Except Error Bool} :
    s.Decides type iface answer ↔ answer = s.implements type iface := by
  unfold implements
  constructor
  · intro h
    cases h with
    | notInterface hlays => rw [← (lays_iff hunlooped).mp hlays]
    | same hlays hsame =>
        rw [← (lays_iff hunlooped).mp hlays, hsame]
        rfl
    | value hlays hother hgathers hcovers =>
        rw [← (lays_iff hunlooped).mp hlays]
        dsimp only
        rw [satisfies_eq, ← (gathers_iff hunlooped).mp hgathers, hcovers, Bool.or_true]
        rfl
    | noPointer hlays hother hgathers hmissing hpointer =>
        rw [← (lays_iff hunlooped).mp hlays]
        dsimp only
        rw [satisfies_eq, ← (gathers_iff hunlooped).mp hgathers, hmissing, hother, hpointer]
        rfl
    | pointer hlays hother hgathers hmissing hvalue hgathers' =>
        rw [← (lays_iff hunlooped).mp hlays]
        dsimp only
        rw [satisfies_eq, ← (gathers_iff hunlooped).mp hgathers, hmissing, hother]
        cases type with
        | pointer elem => exact absurd rfl (hvalue elem)
        | _ =>
            rw [(gathers_iff hunlooped).mp hgathers']
            rfl
  · rintro rfl
    have hgathers : s.Gathers type (s.methodSet type) := (gathers_iff hunlooped).mpr rfl
    cases hrequired : s.interfaceMethods? iface with
    | none => exact .notInterface ((lays_iff hunlooped).mpr hrequired.symm)
    | some required =>
        have hlays := (lays_iff hunlooped).mpr hrequired.symm
        dsimp only
        cases hsame : type == iface with
        | true => exact .same hlays hsame
        | false =>
            rw [satisfies_eq]
            cases hcovers : covers (s.methodSet type) required with
            | true => exact .value hlays hsame hgathers hcovers
            | false =>
                rw [Bool.or_false, if_neg Bool.false_ne_true]
                cases type with
                | pointer elem => exact .noPointer hlays hsame hgathers hcovers rfl
                | _ =>
                    exact .pointer hlays hsame hgathers hcovers (fun _ h => by cases h)
                      ((gathers_iff hunlooped).mpr rfl)

/-!
# Implementers
-/

/-- A declared type is tried by value first, then through a pointer. -/
inductive Weighs (s : Session) (name : TypeName) (required : MethodSet) :
    Option Implementation -> Prop
  | value {methods : MethodSet} (hgathers : s.Gathers (.named name) methods)
      (hcovers : covers methods required = true) : Weighs s name required (some .value)
  | pointer {methods methods' : MethodSet} (hgathers : s.Gathers (.named name) methods)
      (hmissing : covers methods required = false)
      (hgathers' : s.Gathers (.pointer (.named name)) methods')
      (hcovers : covers methods' required = true) : Weighs s name required (some .pointer)
  | neither {methods methods' : MethodSet} (hgathers : s.Gathers (.named name) methods)
      (hmissing : covers methods required = false)
      (hgathers' : s.Gathers (.pointer (.named name)) methods')
      (hmissing' : covers methods' required = false) : Weighs s name required none

theorem weighs_iff (hunlooped : s.Unlooped) {name : TypeName} {required : MethodSet}
    {form : Option Implementation} :
    s.Weighs name required form ↔ form = s.implementation? name required := by
  unfold implementation?
  rw [satisfies_eq, satisfies_eq]
  constructor
  · intro h
    cases h with
    | value hgathers hcovers => rw [← (gathers_iff hunlooped).mp hgathers, if_pos hcovers]
    | pointer hgathers hmissing hgathers' hcovers =>
        rw [← (gathers_iff hunlooped).mp hgathers, ← (gathers_iff hunlooped).mp hgathers',
          hmissing, if_neg Bool.false_ne_true, if_pos hcovers]
    | neither hgathers hmissing hgathers' hmissing' =>
        rw [← (gathers_iff hunlooped).mp hgathers, ← (gathers_iff hunlooped).mp hgathers',
          hmissing, hmissing', if_neg Bool.false_ne_true, if_neg Bool.false_ne_true]
  · rintro rfl
    have hvalue : s.Gathers (.named name) (s.methodSet (.named name)) :=
      (gathers_iff hunlooped).mpr rfl
    have hpointer : s.Gathers (.pointer (.named name)) (s.methodSet (.pointer (.named name))) :=
      (gathers_iff hunlooped).mpr rfl
    split
    · next hcovers => exact .value hvalue hcovers
    · next hmissing =>
        split
        · next hcovers => exact .pointer hvalue (by simpa using hmissing) hpointer hcovers
        · next hmissing' =>
            exact .neither hvalue (by simpa using hmissing) hpointer (by simpa using hmissing')

/-- The definitions are tried one after another; aliases, interfaces and the interface itself
are passed over. -/
inductive WeighsAll (s : Session) (iface : TypeName) (required : MethodSet) :
    List TypeDef -> List (TypeName × Implementation) -> Prop
  | done : WeighsAll s iface required [] []
  | skipped {d : TypeDef} {rest : List TypeDef} {found : List (TypeName × Implementation)}
      (hskipped : (d.name == iface || d.isAlias || d.isInterface) = true)
      (hrest : WeighsAll s iface required rest found) : WeighsAll s iface required (d :: rest) found
  | unfit {d : TypeDef} {rest : List TypeDef} {found : List (TypeName × Implementation)}
      (htried : (d.name == iface || d.isAlias || d.isInterface) = false)
      (hweighs : s.Weighs d.name required none) (hrest : WeighsAll s iface required rest found) :
      WeighsAll s iface required (d :: rest) found
  | fit {d : TypeDef} {rest : List TypeDef} {found : List (TypeName × Implementation)}
      {form : Implementation} (htried : (d.name == iface || d.isAlias || d.isInterface) = false)
      (hweighs : s.Weighs d.name required (some form))
      (hrest : WeighsAll s iface required rest found) :
      WeighsAll s iface required (d :: rest) ((d.name, form) :: found)

def implementer? (s : Session) (iface : TypeName) (required : MethodSet) (d : TypeDef) :
    Option (TypeName × Implementation) :=
  if d.name == iface || d.isAlias || d.isInterface then none
  else (s.implementation? d.name required).map fun form => (d.name, form)

theorem implementer?_of_skipped {iface : TypeName} {required : MethodSet} {d : TypeDef}
    (h : (d.name == iface || d.isAlias || d.isInterface) = true) :
    s.implementer? iface required d = none := if_pos h

theorem implementer?_of_tried (s : Session) {iface : TypeName} (required : MethodSet) {d : TypeDef}
    (h : (d.name == iface || d.isAlias || d.isInterface) = false) :
    s.implementer? iface required d =
      (s.implementation? d.name required).map fun form => (d.name, form) := by
  rw [implementer?, h, if_neg Bool.false_ne_true]

theorem implementersOf_eq (s : Session) (iface : TypeName) (required : MethodSet) :
    s.implementersOf iface required =
      s.index.definitions.filterMap (s.implementer? iface required) := rfl

theorem weighsAll_iff (hunlooped : s.Unlooped) {iface : TypeName} {required : MethodSet}
    {definitions : List TypeDef} {found : List (TypeName × Implementation)} :
    s.WeighsAll iface required definitions found ↔
      found = definitions.filterMap (s.implementer? iface required) := by
  constructor
  · intro h
    induction h with
    | done => rfl
    | skipped hskipped _ ih => rw [ih, List.filterMap_cons_none (implementer?_of_skipped hskipped)]
    | unfit htried hweighs _ ih =>
        have hadded := s.implementer?_of_tried required htried
        rw [← (weighs_iff hunlooped).mp hweighs] at hadded
        rw [ih, List.filterMap_cons_none hadded]
    | fit htried hweighs _ ih =>
        have hadded := s.implementer?_of_tried required htried
        rw [← (weighs_iff hunlooped).mp hweighs] at hadded
        rw [ih, List.filterMap_cons_some hadded]
  · rintro rfl
    induction definitions with
    | nil => exact .done
    | cons d rest ih =>
        cases htried : d.name == iface || d.isAlias || d.isInterface with
        | true =>
            rw [List.filterMap_cons_none (implementer?_of_skipped htried)]
            exact .skipped htried ih
        | false =>
            have hadded := s.implementer?_of_tried required htried
            cases hform : s.implementation? d.name required with
            | none =>
                rw [hform] at hadded
                rw [List.filterMap_cons_none hadded]
                exact .unfit htried ((weighs_iff hunlooped).mpr hform.symm) ih
            | some form =>
                rw [hform] at hadded
                rw [List.filterMap_cons_some hadded]
                exact .fit htried ((weighs_iff hunlooped).mpr hform.symm) ih

inductive Searches (s : Session) (iface : TypeName) :
    Except Error (List (TypeName × Implementation)) -> Prop
  | unknown (hnone : s.definition? iface = none) :
      Searches s iface (.error (.objectNotFound iface.full))
  | notInterface {d : TypeDef} (hd : s.definition? iface = some d) (hlays : s.Lays d.asType none) :
      Searches s iface (.error (.notInterface iface.full))
  | found {d : TypeDef} {required : MethodSet} {found : List (TypeName × Implementation)}
      (hd : s.definition? iface = some d) (hlays : s.Lays d.asType (some required))
      (hall : s.WeighsAll iface required s.index.definitions found) : Searches s iface (.ok found)

theorem searches_iff (hunlooped : s.Unlooped) {iface : TypeName}
    {answer : Except Error (List (TypeName × Implementation))} :
    s.Searches iface answer ↔ answer = s.searched iface := by
  unfold searched
  constructor
  · intro h
    cases h with
    | unknown hnone => rw [hnone]
    | notInterface hd hlays =>
        rw [hd]
        dsimp only
        rw [← (lays_iff hunlooped).mp hlays]
    | found hd hlays hall =>
        rw [hd]
        dsimp only
        rw [← (lays_iff hunlooped).mp hlays, (weighsAll_iff hunlooped).mp hall]
        rfl
  · rintro rfl
    cases hd : s.definition? iface with
    | none => exact .unknown hd
    | some d =>
        dsimp only
        cases hrequired : s.interfaceMethods? d.asType with
        | none => exact .notInterface hd ((lays_iff hunlooped).mpr hrequired.symm)
        | some required =>
            exact .found hd ((lays_iff hunlooped).mpr hrequired.symm)
              ((weighsAll_iff hunlooped).mpr (s.implementersOf_eq iface required))

/-- The package of the interface is asked for if it is not there, and the search goes on in the
session after the request. -/
inductive Seeks (s : Session) (iface : TypeName) :
    Except Error (List (TypeName × Implementation)) × Session -> Prop
  | here {answer : Except Error (List (TypeName × Implementation))}
      (hpackage : (s.package? iface.packagePath).isNone = false)
      (hsearches : s.Searches iface answer) : Seeks s iface (answer, s)
  | refused {e : Error} {t : Session} (hpackage : (s.package? iface.packagePath).isNone = true)
      (hrequest : (resolve iface.packagePath).run s = (.error e, t)) : Seeks s iface (.error e, t)
  | requested {package : Option Package} {t : Session}
      {answer : Except Error (List (TypeName × Implementation))}
      (hpackage : (s.package? iface.packagePath).isNone = true)
      (hrequest : (resolve iface.packagePath).run s = (.ok package, t))
      (hsearches : t.Searches iface answer) : Seeks s iface (answer, t)

theorem seeks_iff {iface : TypeName} (hunlooped : ((findImplementers iface).run s).2.Unlooped)
    {result : Except Error (List (TypeName × Implementation)) × Session} :
    s.Seeks iface result ↔ result = (findImplementers iface).run s := by
  rw [run_findImplementers_eq] at hunlooped ⊢
  cases hpackage : (s.package? iface.packagePath).isNone with
  | false =>
      rw [hpackage, if_neg Bool.false_ne_true] at hunlooped
      rw [if_neg Bool.false_ne_true]
      constructor
      · intro h
        cases h with
        | here _ hsearches => rw [(searches_iff hunlooped).mp hsearches]
        | refused hnone | requested hnone => cases hpackage.symm.trans hnone
      · rintro rfl
        exact .here hpackage ((searches_iff hunlooped).mpr rfl)
  | true =>
      rw [hpackage, if_pos rfl] at hunlooped
      rw [if_pos rfl]
      constructor
      · intro h
        cases h with
        | here hsome => cases hpackage.symm.trans hsome
        | refused _ hrequest => rw [hrequest]
        | requested _ hrequest hsearches =>
            rw [hrequest] at hunlooped ⊢
            rw [(searches_iff hunlooped).mp hsearches]
      · rintro rfl
        rcases hrequest : (resolve iface.packagePath).run s with ⟨r, t⟩
        rw [hrequest] at hunlooped
        cases r with
        | ok package => exact .requested hpackage hrequest ((searches_iff hunlooped).mpr rfl)
        | error e => exact .refused hpackage hrequest

/-!
# Sessions of the Go checker
-/

/-- No alias of the Go checker is defined through itself: the names in its target are no aliases. -/
theorem Standard.unlooped (h : s.Standard) : s.Unlooped := by
  have hterritory := h.territory
  have hstays : forall {type next : GoType}, Relation.ReflTransGen s.Exposes type next ->
      type.Within True s.Firm -> next.Within True s.Firm := by
    intro type next hpath htype
    induction hpath with
    | refl => exact htype
    | tail _ hstep ih =>
        cases hstep with
        | renamed hrenames =>
            obtain ⟨name, d, rfl, hd, _, rfl⟩ := hrenames
            exact (hterritory.typeDef ih hd).2
        | written helem => exact GoType.within_of_embedded ih helem
  intro name d hd halias hloop
  obtain ⟨next, hfirst, hrest⟩ := Relation.TransGen.head'_iff.mp hloop
  obtain ⟨e, he, halias', rfl⟩ := exposes_of_named hfirst
  have htarget : e.underlying.Within True s.Firm := by
    cases name with
    | builtin word =>
        rw [typeDef_of_builtin he] at halias'
        cases halias'
    | declared package name =>
        have hwithin := h.asType_of_definition he
        rwa [TypeDef.asType, if_pos halias'] at hwithin
  have hdirect := (hterritory.typeDef (hstays hrest htarget) hd).1
  cases halias.symm.trans hdirect

/-- All questions about methods have one answer each, which the search for it comes to: the
bounded searches find it, and there is no other. -/
structure MethodsEnd (s : Session) : Prop where
  interfaces : forall type found, s.Lays type found ↔ found = s.interfaceMethods? type
  methodSets : forall type methods, s.Gathers type methods ↔ methods = s.methodSet type
  decisions : forall type iface answer,
    s.Decides type iface answer ↔ answer = s.implements type iface
  searches : forall iface answer, s.Searches iface answer ↔ answer = s.searched iface

theorem methodsEnd_of_unlooped (h : s.Unlooped) : s.MethodsEnd where
  interfaces _ _ := lays_iff h
  methodSets _ _ := gathers_iff h
  decisions _ _ _ := decides_iff h
  searches _ _ := searches_iff h

/-- A search for implementers ends, and so do all the requests inside it. -/
structure SeekingEnds (s : Session) (iface : TypeName) : Prop where
  requests : Unwinds ⟨iface.packagePath, Operation.home s iface.packagePath, s⟩
  result : forall result, s.Seeks iface result ↔ result = (findImplementers iface).run s

/-- Questions about methods come to an end in every session without an alias that is defined
through itself, and no session of the Go checker has one. -/
theorem searches_end :
    (forall s : Session, s.Unlooped -> s.MethodsEnd) ∧
    (forall (s : Session) (iface : TypeName), s.Tidy ->
      ((findImplementers iface).run s).2.Unlooped -> s.SeekingEnds iface) ∧
    forall tree roots options ops,
      (after (goSetup tree roots options) ops).Unlooped ∧
      (after (goSetup tree roots options) ops).MethodsEnd ∧
      forall iface, (after (goSetup tree roots options) ops).SeekingEnds iface := by
  have hgo : forall tree roots options ops, (after (goSetup tree roots options) ops).Unlooped :=
    fun tree roots options ops => (standard_after tree roots options ops).unlooped
  have hseek : forall (s : Session) (iface : TypeName), s.Tidy ->
      ((findImplementers iface).run s).2.Unlooped -> s.SeekingEnds iface :=
    fun s iface htidy hunlooped => ⟨unwinds_of_tidy htidy, fun _ => seeks_iff hunlooped⟩
  refine ⟨fun s => methodsEnd_of_unlooped, hseek, fun tree roots options ops => ?_⟩
  refine ⟨hgo tree roots options ops, methodsEnd_of_unlooped (hgo tree roots options ops), ?_⟩
  intro iface
  refine hseek _ iface (Tidy.of_idle (pending_after _ _)) ?_
  rw [← after_findImplementers]
  exact hgo tree roots options _

/-- Structs that embed themselves and each other through pointers, and an interface that embeds
itself by its name and behind an alias. -/
def knotTree : FileTree :=
  let source := "package a\n\ntype I interface\x7b I; J; M() \x7d\n\ntype J = I\n\n" ++
    "type S struct\x7b *S; *T \x7d\n\ntype T struct\x7b *S \x7d\n\n" ++
    "func (T) M() \x7b\x7d\n\ntype U struct\x7b *U; V \x7d\n\ntype V struct\x7b *U \x7d\n\n" ++
    "func (*V) M() \x7b\x7d\n"
  ⟨[(["w", "a", "a.go"], Text.encode source)], [], []⟩

def knotSession (ops : List Operation) : Session :=
  after (goSetup knotTree ⟨some ⟨"/w"⟩, none, "vendor"⟩ ⟨false, false⟩) ops

/-- The searches for `a.I` and for the methods of `*a.S` come to an end. -/
theorem searches_end_knot :
    (knotSession [.resolve "a"]).Unlooped ∧ (knotSession []).Tidy ∧
    ((findImplementers (.declared "a" "I")).run (knotSession [])).2.Unlooped ∧
    (exists methods,
      (knotSession [.resolve "a"]).Gathers (.pointer (.named (.declared "a" "S"))) methods ∧
      methods.keys = ["M"]) ∧
    exists found t, (knotSession []).Seeks (.declared "a" "I") (.ok found, t) ∧
      written found =
        [("a.S", .value), ("a.T", .value), ("a.U", .pointer), ("a.V", .pointer)] := by
  have hunlooped : forall ops, (knotSession ops).Unlooped :=
    fun ops => (standard_after _ _ _ ops).unlooped
  have htidy : (knotSession []).Tidy := Tidy.of_idle (pending_after _ _)
  have hkeys : ((knotSession [.resolve "a"]).methodSet
      (.pointer (.named (.declared "a" "S")))).keys = ["M"] := by
    decide +kernel
  have hwritten : (((findImplementers (.declared "a" "I")).run
      (knotSession [])).1.toOption.map written) =
      some [("a.S", .value), ("a.T", .value), ("a.U", .pointer), ("a.V", .pointer)] := by
    decide +kernel
  obtain ⟨found, hfound, hlist⟩ := Option.map_eq_some_iff.mp hwritten
  have hnext : ((findImplementers (.declared "a" "I")).run (knotSession [])).2.Unlooped := by
    rw [knotSession, ← after_findImplementers]
    exact (standard_after _ _ _ _).unlooped
  have hends := searches_end.1 (knotSession [.resolve "a"]) (hunlooped _)
  have hseeks := searches_end.2.1 (knotSession []) (.declared "a" "I") htidy hnext
  rcases hrun : (findImplementers (.declared "a" "I")).run (knotSession []) with ⟨r, t⟩
  rw [hrun] at hfound
  cases ok_of_toOption hfound
  have hgathers := (hends.methodSets (.pointer (.named (.declared "a" "S")))
    ((knotSession [.resolve "a"]).methodSet (.pointer (.named (.declared "a" "S"))))).mpr rfl
  have hseek := (hseeks.result (.ok found, t)).mpr hrun.symm
  exact ⟨hunlooped _, htidy, hrun ▸ hnext, ⟨_, hgathers, hkeys⟩, found, t, hseek, hlist⟩

end Session
end GoAtlas
