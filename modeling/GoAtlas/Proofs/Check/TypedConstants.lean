import GoAtlas.Proofs.Check.Behind
import GoAtlas.Proofs.Check.IntegerConstants

/-!
# Typed constants

A constant that is declared with a type has a value of the kind behind that type.  When the value is
brought to the type, no declaration is pending that settles, so that the kind which is found then is
the kind that the outcome shows.
-/

namespace GoAtlas

open Scope (Pending)

namespace Scope

/-!
# Where links lead
-/

def Leads (sc : Scope) (answers : Answers) (links : Links) : Prop :=
  forall k p, sc.Reliable answers p -> sc.Judges answers k ((links.follow k).outcome answers p).1 ∧
    sc.Reliable answers ((links.follow k).outcome answers p).2

section Leading

variable {sc : Scope} {answers : Answers} {links : Links} {p : Progress}

theorem kept_reliable (hlinks : sc.Leads answers links) :
    Kept sc answers links (sc.Reliable answers) :=
  .of_steps (fun _ file line isSoft complaint hp => hp.complained file line isSoft complaint)
    (fun _ path hp => hp.packageAt path) fun k p _ hp => (hlinks k p hp).2

theorem reliable_call (hlinks : sc.Leads answers links) {α : Type} {F : Links -> Resolve α}
    (hF : sc.Calls F) (hp : sc.Reliable answers p) :
    sc.Reliable answers ((F links).outcome answers p).2 := by
  obtain ⟨Q, htrail⟩ := hF.exists_trail
  exact (kept_reliable hlinks).trail htrail hp

theorem Apt.along {sought next : Sought} {type : GoType} (h : sc.Apt answers next type)
    (hto : forall n, sc.Settles answers n next type -> exists m, sc.Settles answers m sought type)
    (hfrom : forall n other, sc.Settles answers n sought other ->
      exists m other, sc.Settles answers m next other) : sc.Apt answers sought type := by
  rcases h with ⟨n, htype⟩ | ⟨hvague, hnot⟩
  · exact Or.inl (hto n htype)
  · refine Or.inr ⟨hvague, fun n other hother => ?_⟩
    obtain ⟨m, found, hfound⟩ := hfrom n other hother
    exact hnot m found hfound

theorem apt_spelled (hlinks : sc.Leads answers links) (hp : sc.Reliable answers p) (file : String)
    (tparams : List String) (e : Source.TypeExpr) :
    sc.Apt answers (.spelled file tparams e)
      ((sc.resolveType links file tparams e).outcome answers p).1 := by
  cases hname : sc.alias? tparams e with
  | some name =>
      rw [resolveType_of_alias links e hname]
      refine Apt.along (hlinks (.alias name) p hp).1 (fun n h => ⟨n, .named hname h⟩) ?_
      intro n other hother
      cases hother with
      | told hnone => cases hname.symm.trans hnone
      | named hname' h =>
          cases hname.symm.trans hname'
          exact ⟨_, _, h⟩
  | none =>
      by_cases htells : exists type, forall links, Tells (sc.resolveType links file tparams e) type
      · obtain ⟨type, htype⟩ := htells
        rw [(htype links).result]
        exact Or.inl ⟨0, .told hname htype⟩
      · rcases tellsOrVague_resolveType file e hname with htold | hvague
        · exact absurd htold htells
        · refine Or.inr ⟨hvague links answers p, fun n other hother => ?_⟩
          cases hother with
          | told _ h => exact htells ⟨_, h⟩
          | named hsome => cases hname.symm.trans hsome

theorem apt_behind (hlinks : sc.Leads answers links) (hp : sc.Reliable answers p) (fuel : Nat)
    (type : GoType) :
    sc.Apt answers (.behind fuel type)
      ((sc.underlyingWithin links fuel type).outcome answers p).1 := by
  induction fuel generalizing type p with
  | zero => exact Or.inl ⟨0, .spent⟩
  | succ fuel ih =>
      rcases type.shape?_or_declared with ⟨shape, hshape⟩ | ⟨q, name, rfl⟩
      · rw [underlyingWithin_here hshape]
        exact Or.inl ⟨0, .here hshape⟩
      · by_cases hq : q = sc.path
        · subst hq
          rw [underlyingWithin_own]
          refine Apt.along (hlinks (.type name) p hp).1 (fun n h => ⟨n, .own h⟩) ?_
          intro n other hother
          cases hother with
          | here h => cases h
          | own h => exact ⟨_, _, h⟩
          | absent hne | direct hne | through hne => exact absurd rfl hne
        · obtain ⟨p', hp', heq⟩ := exists_outcome_foreign hp links fuel name hq
          rw [heq]
          cases hfound : (answers q).toOption.bind fun package => package.type? name with
          | none => exact Or.inl ⟨0, .absent hq hfound⟩
          | some d =>
              dsimp only
              cases halias : d.isAlias with
              | false => exact Or.inl ⟨0, .direct hq hfound halias⟩
              | true =>
                  refine Apt.along (ih hp' d.underlying)
                    (fun n h => ⟨n, .through hq hfound halias h⟩) ?_
                  intro n other hother
                  cases hother with
                  | here h => cases h
                  | own => exact absurd rfl hq
                  | absent _ h => cases hfound.symm.trans h
                  | direct _ h hd =>
                      cases hfound.symm.trans h
                      cases halias.symm.trans hd
                  | through _ h _ hnext =>
                      cases hfound.symm.trans h
                      exact ⟨_, _, hnext⟩

/-!
# What declarations say
-/

theorem apt_aliasBody (hlinks : sc.Leads answers links) (hp : sc.Reliable answers p) {name : String}
    {d : TypeDecl} (hd : sc.types.get? name = some d) :
    sc.Apt answers (.aliased name) ((sc.aliasBody links d).outcome answers p).1 := by
  refine (apt_spelled hlinks hp d.file d.spec.params d.spec.type).along
    (fun n h => ⟨n + 1, .aliased hd h⟩) ?_
  intro n other hother
  obtain ⟨m, hspelled⟩ := hother.spelled hd
  exact ⟨m, other, hspelled⟩

theorem apt_typeBody (hlinks : sc.Leads answers links) (hp : sc.Reliable answers p) {name : String}
    {d : TypeDecl} (hd : sc.types.get? name = some d) :
    sc.Apt answers (.declared name) ((sc.typeBody links d).outcome answers p).1 := by
  have hspelled := apt_spelled hlinks hp d.file d.spec.params d.spec.type
  have hafter := reliable_call hlinks (.resolveType d.file d.spec.params d.spec.type) hp
  unfold typeBody aliasBody
  rw [Resolve.outcome_bind]
  rcases hspelled with ⟨n, htype⟩ | ⟨hvague, hnot⟩
  · refine (apt_behind hlinks hafter chainLimit _).along
      (fun m h => ⟨max n m + 1, .declared hd htype h⟩) ?_
    intro m other hother
    cases hother with
    | declared hd' h hshape =>
        cases hd.symm.trans hd'
        cases (htype.unique h).2
        exact ⟨_, _, hshape⟩
    | noType hd' => cases hd.symm.trans hd'
  · rw [underlying_eq, underlyingWithin_here hvague.shape]
    refine Or.inr ⟨hvague, fun m other hother => ?_⟩
    cases hother with
    | declared hd' h =>
        cases hd.symm.trans hd'
        exact hnot _ _ h
    | noType hd' => cases hd.symm.trans hd'

theorem fits_of_apt {value : Constant} {type : GoType} {kind : BasicKind}
    (hkind : Constant.Represents kind value)
    (h : sc.Apt answers (.behind chainLimit type) (.basic kind)) : sc.Fits answers (value, type) :=
  fun _ _ hshape => ⟨kind, (h.eq hshape).symm, hkind⟩

theorem fits_of_converts (hlinks : sc.Leads answers links) (hp : sc.Reliable answers p)
    {value : Constant} {target : GoType} {x : Valued}
    (h : sc.Converts answers links p value target x) : sc.Fits answers x := by
  have hbehind : sc.Apt answers (.behind chainLimit target)
      ((sc.underlying links target).outcome answers p).1 := apt_behind hlinks hp chainLimit target
  rcases h.unknown_or_convert with ⟨hunknown, rfl⟩ | ⟨kind, w, _, _, hshape, hw, rfl⟩
  · refine fits_of_apt (Constant.represents_invalid value) ?_
    rcases hunknown with hinvalid | hshape
    · match target, hinvalid with
      | .basic .invalid, _ =>
          have hsettles : sc.Settles answers 0 (.behind (chainLimit - 1 + 1) (.basic .invalid))
              (.basic .invalid) := .here rfl
          exact Or.inl ⟨0, hsettles⟩
    · rwa [hshape] at hbehind
  · rw [hshape] at hbehind
    exact fits_of_apt (Constant.represents_of_convert hw) hbehind

theorem fits_assign (hlinks : sc.Leads answers links) (hp : sc.Reliable answers p) {x y : Valued}
    {target : GoType}
    (h : ((sc.assign links x target).run.outcome answers p).1 = .ok y) : sc.Fits answers y := by
  unfold assign at h
  dsimp only at h
  split at h
  · cases h
  · exact fits_of_converts hlinks hp h

theorem fits_constBody (hlinks : sc.Leads answers links) (hp : sc.Reliable answers p)
    {d : ConstDecl} (htyped : d.type.isSome = true) {x : Valued}
    (h : ((sc.constBody links d).outcome answers p).1 = some x) : sc.Fits answers x := by
  obtain ⟨type, htype⟩ := Option.isSome_iff_exists.mp htyped
  unfold constBody at h
  split at h
  · cases h
  · next expr _ =>
      rw [Resolve.outcome_bind] at h
      split at h
      · next value hvalue =>
          cases h
          unfold declaredValue at hvalue
          rw [htype] at hvalue
          obtain ⟨y, _, hvalue⟩ := ok_of_bind hvalue
          obtain ⟨target, _, hvalue⟩ := ok_of_bind hvalue
          have hfirst := reliable_call hlinks (.eval d.file (some d.iota) expr) hp
          have hsecond := reliable_call hlinks (.resolveType d.file [] type) hfirst
          rw [outcome_lift] at hvalue
          exact fits_assign hlinks hsecond hvalue
      · cases h

theorem judges_saying (hlinks : sc.Leads answers links) (hp : sc.Reliable answers p) {k : Pending}
    {d : Saying k.Result} (hd : sc.saying? k = some d) :
    sc.Judges answers k ((d.body links).outcome answers p).1 := by
  match k with
  | .alias name =>
      obtain ⟨decl, hdecl, rfl⟩ := Option.map_eq_some_iff.mp hd
      exact apt_aliasBody hlinks hp hdecl
  | .type name =>
      obtain ⟨decl, hdecl, rfl⟩ := Option.map_eq_some_iff.mp hd
      exact apt_typeBody hlinks hp hdecl
  | .const i =>
      obtain ⟨decl, hdecl, rfl⟩ := Option.map_eq_some_iff.mp hd
      intro x c hx hc htyped
      cases hdecl.symm.trans hc
      exact fits_constBody hlinks hp htyped hx

end Leading

/-!
# All links of a package
-/

section Links

variable {sc : Scope} {answers : Answers} {fuel : Nat} {pending : List Pending} {p : Progress}

theorem judges_nothing {k : Pending} (hnot : forall n a, ¬ sc.SettlesAs answers n k a) :
    sc.Judges answers k k.nothing := by
  match k with
  | .alias name => exact Or.inr ⟨rfl, hnot⟩
  | .type name => exact Or.inr ⟨rfl, hnot⟩
  | .const i =>
      intro x d hx
      cases hx

theorem judges_of_settles {n : Nat} {k : Pending} {a : k.Result}
    (ha : sc.SettlesAs answers n k a) (hample : sc.Ample fuel pending)
    (habove : sc.Above answers n pending) (hp : sc.Reliable answers p) :
    sc.Judges answers k (((sc.linksWithin fuel pending).follow k).outcome answers p).1 ∧
      sc.Reliable answers (((sc.linksWithin fuel pending).follow k).outcome answers p).2 := by
  have hfinds : sc.Finds answers ((sc.linksWithin fuel pending).follow k) p a := by
    match k with
    | .alias _ | .type _ => exact Settles.finds ha hample habove hp
    | .const _ => exact ha.elim
  rw [hfinds.result]
  exact ⟨judges_of_settlesAs ha, hfinds.reliable⟩

/-- While nothing is pending that settles, links lead to what can be relied on. -/
theorem leads_linksWithin (hample : sc.Ample fuel pending)
    (hfree : forall k, k ∈ pending -> forall n a, ¬ sc.SettlesAs answers n k a) :
    sc.Leads answers (sc.linksWithin fuel pending) := by
  induction fuel generalizing pending with
  | zero => exact hample.not_zero.elim
  | succ fuel ih =>
      intro k p hp
      by_cases hsettles : exists n a, sc.SettlesAs answers n k a
      · obtain ⟨n, a, ha⟩ := hsettles
        exact judges_of_settles ha hample (fun k hk m b hb => absurd hb (hfree k hk m b)) hp
      · -- It may be entered: whatever is pending further down does not settle either.
        have hnot : forall n a, ¬ sc.SettlesAs answers n k a :=
          fun n a ha => hsettles ⟨n, a, ha⟩
        refine follow_cases
          (P := fun r => sc.Judges answers k r.1 ∧ sc.Reliable answers r.2) ?_ ?_ ?_ ?_
        · exact fun a ha => ⟨hp.judged k a ha, hp⟩
        · exact fun _ => ⟨judges_nothing hnot, hp⟩
        · exact fun d _ _ => ⟨judges_nothing hnot, hp.complained d.file d.line false d.circular⟩
        · intro d hd hk
          have hlinks := ih (hample.enter (mem_allPending_of_saying hd) hk)
            (List.forall_mem_cons.mpr ⟨hnot, hfree⟩)
          obtain ⟨_, _, _, _, _, htrail⟩ :=
            trail_saying (sc.setting_self fun _ _ => trivial) hd
          have hjudged := judges_saying hlinks hp hd
          exact ⟨hjudged, ((kept_reliable hlinks).trail htrail hp).record hjudged⟩

end Links
end Scope

/-!
# The whole package
-/

/-- The kind that is at the end behind a type, by the definitions of a package and those of other
packages.  The number bounds how many types of other packages follow one another. -/
inductive HasKind (path : String) (types : List TypeDef) (answers : Answers) :
    Nat -> GoType -> BasicKind -> Prop where
  | basic {n : Nat} (kind : BasicKind) : HasKind path types answers (n + 1) (.basic kind) kind
  | own {n : Nat} {name : String} {d : TypeDef} {kind : BasicKind} (hd : d ∈ types)
      (hname : d.name = .declared path name)
      (h : HasKind path types answers chainLimit d.underlying kind) :
      HasKind path types answers (n + 1) (.named (.declared path name)) kind
  | foreign {n : Nat} {q name : String} {package : Package} {d : TypeDef} {kind : BasicKind}
      (hq : q ≠ path) (hpackage : answers q = .ok package) (hd : package.type? name = some d)
      (h : HasKind path types answers n d.underlying kind) :
      HasKind path types answers (n + 1) (.named (.declared q name)) kind

theorem HasKind.basic_or_named {path : String} {types : List TypeDef} {answers : Answers} {n : Nat}
    {type : GoType} {kind : BasicKind} (h : HasKind path types answers n type kind) :
    type = .basic kind ∨ exists name, type = .named name := by
  cases h with
  | basic => exact Or.inl rfl
  | own | foreign => exact Or.inr ⟨_, rfl⟩

theorem HasKind.eq_invalid {path : String} {types : List TypeDef} {answers : Answers} {n : Nat}
    {type : GoType} {kind : BasicKind} (h : HasKind path types answers n type kind)
    (hvague : type.IsVague) : kind = .invalid := by
  rcases h.basic_or_named with rfl | ⟨name, rfl⟩
  · exact hvague
  · exact hvague.elim

namespace Scope

section Kinds

variable {sc : Scope} {answers : Answers} {types : List TypeDef} {n : Nat} {type : GoType}
  {kind : BasicKind}

def AptTypes (sc : Scope) (answers : Answers) (types : List TypeDef) : Prop :=
  forall d, d ∈ types -> exists name, d.name = .declared sc.path name ∧
    (sc.Apt answers (.aliased name) d.underlying ∨ sc.Apt answers (.declared name) d.underlying)

theorem settles_of_hasKind (htypes : sc.AptTypes answers types)
    (h : HasKind sc.path types answers n type kind) (hkind : kind ≠ .invalid) :
    exists m shape, sc.Settles answers m (.behind n type) shape ∧
      (shape = .basic kind ∨ exists name, shape = .named name) := by
  induction h with
  | basic kind => exact ⟨0, _, .here rfl, Or.inl rfl⟩
  | @own n name d kind hd hname h ih =>
      obtain ⟨name', hname', hapt⟩ := htypes d hd
      cases hname.symm.trans hname'
      rcases hapt with (⟨i, halias⟩ | ⟨hvague, _⟩) | (⟨i, hshape⟩ | ⟨hvague, _⟩)
      · obtain ⟨m, shape, hshape, hends⟩ := ih hkind
        cases hdecl : sc.types.get? name with
        | none =>
            have hnothing : d.underlying = .invalid := (halias.unique (.noAlias hdecl)).2
            have hvague : d.underlying.IsVague := by
              rw [hnothing]
              rfl
            exact absurd (h.eq_invalid hvague) hkind
        | some decl =>
            obtain ⟨j, hspelled⟩ := halias.spelled hdecl
            exact ⟨max j m + 1, shape, .own (.declared hdecl hspelled hshape), hends⟩
      · exact absurd (h.eq_invalid hvague) hkind
      · exact ⟨i, _, .own hshape, h.basic_or_named⟩
      · exact absurd (h.eq_invalid hvague) hkind
  | @foreign n q name package d kind hq hpackage hd h ih =>
      have hfound : ((answers q).toOption.bind fun package => package.type? name) = some d := by
        rw [hpackage]
        exact hd
      cases halias : d.isAlias with
      | false => exact ⟨0, _, .direct hq hfound halias, h.basic_or_named⟩
      | true =>
          obtain ⟨m, shape, hshape, hends⟩ := ih hkind
          exact ⟨m, shape, .through hq hfound halias hshape, hends⟩

theorem Fits.represents {x : Valued} (h : sc.Fits answers x) (htypes : sc.AptTypes answers types)
    (hhas : HasKind sc.path types answers chainLimit x.2 kind) : Constant.Represents kind x.1 := by
  by_cases hkind : kind = .invalid
  · rw [hkind]
    exact Constant.represents_invalid x.1
  · obtain ⟨m, shape, hshape, hends⟩ := settles_of_hasKind htypes hhas hkind
    obtain ⟨found, hfound, hvalue⟩ := h m shape hshape
    rcases hends with hbasic | ⟨name, hnamed⟩
    · cases hfound.symm.trans hbasic
      exact hvalue
    · cases hfound.symm.trans hnamed

theorem aptTypes_of_found {links : Links} {package : CheckedPackage}
    (h : sc.AllFound answers links (sc.Reliable answers) package)
    (hlinks : sc.Leads answers links) : sc.AptTypes answers package.types := by
  intro d hd
  obtain ⟨⟨name, decl⟩, _, hname, q, hq, hresult⟩ := exists_mem_left h.types hd
  refine ⟨name, hname, ?_⟩
  rw [← hresult]
  split
  · exact Or.inl (hlinks (.alias name) q hq).1
  · exact Or.inr (hlinks (.type name) q hq).1

end Kinds
end Scope

theorem reliable_collect (p : LoadedPackage) (answers : Answers) :
    ((collect p).under answers).scope.Reliable answers ((collect p).under answers).progress where
  told := told_collect p answers
  judged k a ha := by
    match k with
    | .alias _ | .type _ | .const _ => cases ha

/-- A constant whose declaration names a type, or repeats one, has a value of the kind that the
outcome of the check and the other packages show behind its type. -/
theorem represents_checkGo (p : LoadedPackage) (answers : Answers) {c : ConstDef} {d : ConstDecl}
    {kind : BasicKind} (hc : c ∈ ((checkGo p).under answers).package.consts)
    (hd : d ∈ p.constants) (hname : d.name = c.name) (htyped : d.type.isSome = true)
    (hkind : HasKind p.importPath ((checkGo p).under answers).package.types answers chainLimit
      c.type kind) : Constant.Represents kind c.value := by
  have hlinks : ((collect p).under answers).scope.Leads answers
      ((collect p).under answers).scope.links :=
    Scope.leads_linksWithin (Scope.Ample.links _) (List.forall_mem_nil _)
  have hfound := Scope.allFound_definitionsWith (Scope.kept_reliable hlinks)
    (reliable_collect p answers) p.name
  rw [under_checkGo] at hc hkind
  rw [← Collection.path_collect p answers] at hkind
  obtain ⟨q, i, decl, hq, hdecl, hsame, hvalue⟩ := hfound.exists_const hc
  -- No other constant claims the name.
  have hmem : decl ∈ p.constants := by
    rw [← consts_collect p answers]
    exact List.mem_of_getElem? hdecl
  have hdecl' : d = decl := List.inj_on_of_nodup_map (nodup_constants p) hd hmem
    (hname.trans hsame.symm)
  have hfits := (hlinks (.const i) q hq).1 _ _ hvalue hdecl (hdecl' ▸ htyped)
  exact hfits.represents (Scope.aptTypes_of_found hfound hlinks) hkind

/-!
# A package of sizes
-/

def levelAnswers : Answers
  | "d" => .ok (.ofChecked "d" .system none
      ⟨"d", [⟨.declared "d" "Level", .basic .uint16, [], false, none⟩], [], []⟩)
  | q => .error (.packageNotFound q)

/-- A type that is defined through another, an alias of a type of another package, and constants of
both.  The second constant repeats the type and the expression of the first. -/
def sizesPackage : LoadedPackage :=
  ⟨⟨"/p"⟩, "p", "p", ["a.go"], [("a.go", ⟨[], ⟨[
    .imports [⟨.word "\"d\"", none, .word "\"d\""⟩],
    .types [⟨.word "Size Small", .word "Size", [], false, .name (.word "Small")⟩],
    .types [⟨.word "Small uint8", .word "Small", [], false, .name (.word "uint8")⟩],
    .types [⟨.word "Level = d.Level", .word "Level", [], true,
      .qualified (.word "d.Level") (.word "d") (.word "Level")⟩],
    .consts [
      ⟨.word "A Size = 1 << (iota + 3)", [.word "A"], some (.name (.word "Size")),
        some [shiftExpr]⟩,
      ⟨.word "B", [.word "B"], none, none⟩,
      ⟨.word "C Level = 7", [.word "C"], some (.name (.word "Level")),
        some [.int (.word "7")]⟩]], [], []⟩⟩)]⟩

/-- The kind behind `Size` is found in the package, and the kind behind `Level` in `d`. -/
theorem represents_checkGo_sizesPackage :
    let o := ((checkGo sizesPackage).under levelAnswers).package
    (exists b, o.consts[1]? = some b ∧ b.name = "B" ∧
      HasKind "p" o.types levelAnswers chainLimit b.type .uint8 ∧
      Constant.Represents .uint8 b.value) ∧
    exists c, o.consts[2]? = some c ∧ c.name = "C" ∧
      HasKind "p" o.types levelAnswers chainLimit c.type .uint16 ∧
      Constant.Represents .uint16 c.value := by
  intro o
  have hsize : o.types[1]? = some ⟨.declared "p" "Size", .basic .uint8, [], false,
      some (Scope.spanOf "a.go" (.word "Size Small"))⟩ := rfl
  have hown : HasKind "p" o.types levelAnswers (chainLimit - 1 + 1)
      (.named (.declared "p" "Size")) .uint8 :=
    .own (List.mem_of_getElem? hsize) rfl (.basic (n := chainLimit - 1) .uint8)
  have hforeign : HasKind "p" o.types levelAnswers (chainLimit - 2 + 1 + 1)
      (.named (.declared "d" "Level")) .uint16 := .foreign (by decide) rfl rfl (.basic .uint16)
  have hb : o.consts[1]? = some ⟨"B", .named (.declared "p" "Size"), .int 16,
      some (Scope.spanOf "a.go" (.word "B"))⟩ := rfl
  have hc : o.consts[2]? = some ⟨"C", .named (.declared "d" "Level"), .int 7,
      some (Scope.spanOf "a.go" (.word "C Level = 7"))⟩ := rfl
  refine ⟨⟨_, hb, rfl, hown, ?_⟩, _, hc, rfl, hforeign, ?_⟩
  · have hdecl : sizesPackage.constants[1]? = some
        ⟨"B", "a.go", .word "B", some (.name (.word "Size")), some shiftExpr, 1⟩ := rfl
    exact represents_checkGo sizesPackage levelAnswers (List.mem_of_getElem? hb)
      (List.mem_of_getElem? hdecl) rfl rfl hown
  · have hdecl : sizesPackage.constants[2]? = some ⟨"C", "a.go", .word "C Level = 7",
        some (.name (.word "Level")), some (.int (.word "7")), 2⟩ := rfl
    exact represents_checkGo sizesPackage levelAnswers (List.mem_of_getElem? hc)
      (List.mem_of_getElem? hdecl) rfl rfl hforeign

end GoAtlas
