import GoAtlas.Proofs.Check.Exposed

/-!
# Nothing else is seen

Whatever other packages declare besides the names that are exposed makes no difference to a check:
the first pass leads to twin scopes, and the second takes the same trail in both.
-/

namespace GoAtlas

open Source (Spelling)
open Scope (Pending)

/-!
# Two passes abreast
-/

/-- Two states of passes that have found the same, made of known names, each told by its own
importer. -/
structure Progress.Abreast (known : String -> String -> Prop) (answers answers' : Answers)
    (p p' : Progress) : Prop where
  errors : p'.errors = p.errors
  recalled : forall k, p'.recalled k = p.recalled k
  known : forall k a, p.recalled k = some a -> k.Knows known a
  told : p.Told answers
  told' : p'.Told answers'

def Agree (known : String -> String -> Prop) (answers answers' : Answers) {α : Type}
    (m m' : Resolve α) (Q : α -> Prop) : Prop :=
  forall p p', p.Abreast known answers answers' p' ->
    (m'.outcome answers' p').1 = (m.outcome answers p).1 ∧ Q (m.outcome answers p).1 ∧
      (m.outcome answers p).2.Abreast known answers answers' (m'.outcome answers' p').2

section Passes

variable {known : String -> String -> Prop} {answers answers' : Answers}

namespace Progress.Abreast

variable {p p' : Progress}

theorem complained (h : p.Abreast known answers answers' p') (file : String) (line : Nat)
    (isSoft : Bool) (complaint : Complaint) :
    (p.complained file line isSoft complaint).Abreast known answers answers'
      (p'.complained file line isSoft complaint) := by
  have hrecall : forall (r : Progress) (k : Pending),
      (r.complained file line isSoft complaint).recalled k = r.recalled k := by
    intro r k
    match k with
    | .alias _ | .type _ | .const _ => rfl
  refine ⟨congrArg (· ++ _) h.errors, fun k => ?_, fun k a ha => ?_, h.told, h.told'⟩
  · rw [hrecall, hrecall, h.recalled]
  · rw [hrecall] at ha
    exact h.known k a ha

theorem record (h : p.Abreast known answers answers' p') {k : Pending} {a : k.Result}
    (ha : k.Knows known a) :
    (p.record k a).Abreast known answers answers' (p'.record k a) where
  errors := by rw [Progress.errors_record, Progress.errors_record, h.errors]
  recalled := Progress.recalled_record_congr h.recalled k a
  known := Progress.forall_recalled_record h.known ha
  told := by
    unfold Progress.Told
    rw [Progress.packages_record]
    exact h.told
  told' := by
    unfold Progress.Told
    rw [Progress.packages_record]
    exact h.told'

theorem packageAt (h : p.Abreast known answers answers' p') (path : String) :
    exists q q', (Resolve.packageAt path).outcome answers p = ((answers path).toOption, q) ∧
      (Resolve.packageAt path).outcome answers' p' = ((answers' path).toOption, q') ∧
      q.Abreast known answers answers' q' := by
  obtain ⟨packages, hfirst, htold⟩ := Resolve.outcome_packageAt h.told path
  obtain ⟨packages', hsecond, htold'⟩ := Resolve.outcome_packageAt h.told' path
  refine ⟨_, _, hfirst, hsecond, h.errors, fun k => ?_, fun k a ha => ?_, htold, htold'⟩
  · match k with
    | .alias name => exact h.recalled (.alias name)
    | .type name => exact h.recalled (.type name)
    | .const i => exact h.recalled (.const i)
  · match k with
    | .alias name => exact h.known (.alias name) a ha
    | .type name => exact h.known (.type name) a ha
    | .const i => exact h.known (.const i) a ha

end Progress.Abreast

namespace Agree

theorem pure {α : Type} {Q : α -> Prop} (a : α) (h : Q a) :
    Agree known answers answers' (Pure.pure a) (Pure.pure a) Q :=
  fun _ _ habreast => ⟨rfl, h, habreast⟩

theorem bind {α β : Type} {P : α -> Prop} {Q : β -> Prop} {m m' : Resolve α} {f f' : α -> Resolve β}
    (hm : Agree known answers answers' m m' P)
    (hf : forall a, P a -> Agree known answers answers' (f a) (f' a) Q) :
    Agree known answers answers' (m >>= f) (m' >>= f') Q := by
  intro p p' habreast
  obtain ⟨hsame, ha, hnext⟩ := hm p p' habreast
  rw [Resolve.outcome_bind, Resolve.outcome_bind, hsame]
  exact hf _ ha _ _ hnext

end Agree

namespace Scope

variable {sc sc' : Scope} {links links' : Links}

/-- Passes along one trail agree if links and structures do. -/
theorem agree_of_trail {α : Type} {Fault : Complaint -> Prop} {F F' : Links -> Resolve α}
    {Q : α -> Prop} (h : Trail sc sc' known Fault F F' Q)
    (hfollow : forall k, Agree known answers answers' (links.follow k) (links'.follow k)
      (k.Knows known))
    (hbehind : forall type, type.Within True known ->
      Agree known answers answers' (sc.underlying links type) (sc'.underlying links' type)
        fun type => type.Within True known) :
    Agree known answers answers' (F links) (F' links') Q := by
  induction h with
  | pure a ha => exact Agree.pure a ha
  | bind hF hG ihF ihG => exact ihF.bind ihG
  | report file line isSoft hfault =>
      exact fun p p' h => ⟨rfl, trivial, h.complained file line isSoft _⟩
  | follow hk => exact hfollow _
  | behind htype => exact hbehind _ htype

end Scope

end Passes

namespace Scope

section Twins

variable {sc sc' : Scope} {answers answers' : Answers}
  (hlike : answers.Like (sc.Exposed answers) answers')

include hlike

theorem agree_underlyingWithin {links links' : Links} (hpath : sc'.path = sc.path)
    (hlinks : forall name, Agree (sc.Meets answers) answers answers' (links.underlying name)
      (links'.underlying name) fun type => type.Within True (sc.Meets answers)) (fuel : Nat)
    {type : GoType} (htype : type.Within True (sc.Meets answers)) :
    Agree (sc.Meets answers) answers answers' (sc.underlyingWithin links fuel type)
      (sc'.underlyingWithin links' fuel type)
      fun type => type.Within True (sc.Meets answers) := by
  induction fuel generalizing type with
  | zero => exact Agree.pure _ (GoType.within_invalid_iff.mpr trivial)
  | succ fuel ih =>
      cases type with
      | named n =>
          cases n with
          | declared q name =>
              unfold underlyingWithin
              rw [hpath]
              split
              · exact hlinks name
              · next hother =>
                  have hexposed : sc.Exposed answers q name :=
                    (GoType.within_declared_iff.mp htype).resolve_left fun heq =>
                      hother (beq_iff_eq.mpr heq)
                  intro p p' habreast
                  obtain ⟨r, r', hasked, hasked', hnext⟩ := habreast.packageAt q
                  rw [Resolve.outcome_bind, Resolve.outcome_bind, hasked, hasked']
                  rcases hlike q with ⟨found, found', hq, hq', hboth⟩ | ⟨cause, hq, hq'⟩
                  · rw [hq, hq']
                    dsimp only [Except.toOption]
                    rw [hboth.type? name hexposed]
                    split
                    · exact Agree.pure _ (GoType.within_invalid_iff.mpr trivial) r r' hnext
                    · next d hd =>
                        have hwithin := (hexposed.within_type hq hd).2
                        split
                        · exact ih hwithin r r' hnext
                        · exact Agree.pure _ hwithin r r' hnext
                  · rw [hq, hq']
                    exact Agree.pure _ (GoType.within_invalid_iff.mpr trivial) r r' hnext
          | builtin name =>
              unfold underlyingWithin
              split
              · exact Agree.pure _ GoType.within_errorInterface
              · exact Agree.pure _ GoType.within_emptyInterface
      | _ => exact Agree.pure _ htype

omit hlike in
theorem Shares.saying_eq_none {spelled : String -> Spelling -> Prop} (h : sc.Shares sc' spelled)
    {k : Pending} (hd : sc.saying? k = none) : sc'.saying? k = none := by
  match k with
  | .alias _ | .type _ =>
      unfold saying? at hd ⊢
      rw [Option.map_eq_none_iff] at hd ⊢
      rw [h.types, hd]
  | .const _ =>
      unfold saying? at hd ⊢
      rw [Option.map_eq_none_iff] at hd ⊢
      rw [h.consts, hd]

theorem agree_follow (h : sc.Twins answers answers' sc') (fuel : Nat) (pending : List Pending)
    (k : Pending) :
    Agree (sc.Meets answers) answers answers' ((sc.linksWithin fuel pending).follow k)
      ((sc'.linksWithin fuel pending).follow k) (k.Knows (sc.Meets answers)) := by
  have hsetting : sc.Setting sc' (sc.Meets answers) (fun _ => True) sc.Spells :=
    ⟨h.shares hlike, h.supplies hlike, fun _ _ => trivial⟩
  induction fuel generalizing pending k with
  | zero =>
      match k with
      | .alias _ | .type _ | .const _ => exact Agree.pure _ (Pending.knows_nothing _ _)
  | succ fuel ih =>
      intro p p' habreast
      have hrecall := habreast.recalled k
      cases hknown : p.recalled k with
      | some a =>
          rw [outcome_follow_known hknown, outcome_follow_known (hrecall.trans hknown)]
          exact ⟨rfl, habreast.known k a hknown, habreast⟩
      | none =>
          have hknown' := hrecall.trans hknown
          cases hd : sc.saying? k with
          | none =>
              have hd' := hsetting.shares.saying_eq_none hd
              rw [outcome_follow_missing hknown hd, outcome_follow_missing hknown' hd']
              exact ⟨rfl, Pending.knows_nothing _ _, habreast⟩
          | some d =>
              obtain ⟨d', hd', hfile, hline, hcircular, htrail⟩ := trail_saying hsetting hd
              by_cases hk : k ∈ pending
              · rw [outcome_follow_circular hknown hd hk, outcome_follow_circular hknown' hd' hk,
                  hfile, hline, hcircular]
                exact ⟨rfl, Pending.knows_nothing _ _, habreast.complained _ _ _ _⟩
              · rw [outcome_follow_new hknown hd hk, outcome_follow_new hknown' hd' hk]
                have hlinks := ih (k :: pending)
                obtain ⟨hsame, ha, hnext⟩ := agree_of_trail htrail hlinks
                  (fun type htype => agree_underlyingWithin hlike hsetting.shares.path
                    (fun name => hlinks (.type name)) chainLimit htype) p p' habreast
                dsimp only
                rw [hsame]
                exact ⟨rfl, ha, hnext.record ha⟩

theorem agree_definitions (h : sc.Twins answers answers' sc') (name : String) :
    Agree (sc.Meets answers) answers answers' (sc.definitions name) (sc'.definitions name)
      fun _ => True := by
  have hsetting : sc.Setting sc' (sc.Meets answers) (fun _ => True) sc.Spells :=
    ⟨h.shares hlike, h.supplies hlike, fun _ _ => trivial⟩
  have hdepth : sc'.linkDepth = sc.linkDepth := by
    unfold linkDepth
    rw [hsetting.shares.types, hsetting.shares.consts]
  have hlinks := agree_follow hlike h sc.linkDepth []
  rw [definitions_eq, definitions_eq]
  unfold links
  rw [hdepth]
  exact agree_of_trail (trail_definitionsWith hsetting name) hlinks fun type htype =>
    agree_underlyingWithin hlike hsetting.shares.path (fun name => hlinks (.type name)) chainLimit
      htype

end Twins
end Scope

/-- Of other packages a check sees the names that are exposed, and nothing else. -/
theorem under_checkGo_of_like (p : LoadedPackage) (answers answers' : Answers)
    (h : answers.Like (((collect p).under answers).scope.Exposed answers) answers') :
    (checkGo p).under answers' = (checkGo p).under answers := by
  have htwins := Collection.twins_collect p h
  have hstart : ((collect p).under answers).progress.Abreast
      (((collect p).under answers).scope.Meets answers) answers answers'
      ((collect p).under answers').progress := by
    refine ⟨htwins.errors, fun k => ?_, fun k a ha => ?_, htwins.told, htwins.told'⟩
    · match k with
      | .alias _ | .type _ | .const _ => rfl
    · match k with
      | .alias _ | .type _ | .const _ => cases ha
  obtain ⟨hsame, _, hend⟩ := Scope.agree_definitions h htwins.scope p.name _ _ hstart
  rw [under_checkGo, under_checkGo]
  exact congrArg₂ CheckOutcome.mk hsame hend.errors

/-!
# Unexported names that are seen all the same
-/

def declaringPackage (types : List TypeDef) (consts : List ConstDef) : Package :=
  .ofChecked "d" .system none ⟨"d", types, consts, []⟩

def declaringAnswers (types : List TypeDef) (consts : List ConstDef) : Answers := fun q =>
  if q = "d" then .ok (declaringPackage types consts) else .error (.packageNotFound q)

theorem answer_of_declaring {types : List TypeDef} {consts : List ConstDef} {q : String}
    {package : Package} (h : declaringAnswers types consts q = .ok package) :
    q = "d" ∧ package = declaringPackage types consts := by
  unfold declaringAnswers at h
  split at h
  · next hq =>
      cases h
      exact ⟨hq, rfl⟩
  · cases h

theorem like_declaringAnswers {shown : String -> String -> Prop} (types : List TypeDef)
    (consts : List ConstDef) {moreTypes : List TypeDef} {moreConsts : List ConstDef}
    (htypes : forall d, d ∈ moreTypes -> ¬ shown "d" d.name.name)
    (hconsts : forall c, c ∈ moreConsts -> ¬ shown "d" c.name) :
    (declaringAnswers types consts).Like shown
      (declaringAnswers (types ++ moreTypes) (consts ++ moreConsts)) := by
  intro q
  unfold declaringAnswers
  by_cases hq : q = "d"
  · rw [if_pos hq, if_pos hq]
    subst hq
    refine Or.inl ⟨_, _, rfl, rfl, rfl, rfl, rfl, fun name hname => ?_, fun name hname => ?_⟩
    · have hnew : name ∉ (moreTypes.map fun d => (d.name.name, d)).map (·.1) := by
        rw [List.map_map, List.mem_map]
        rintro ⟨d, hd, rfl⟩
        exact htypes d hd hname
      have hboth : (declaringPackage (types ++ moreTypes) (consts ++ moreConsts)).types =
          (declaringPackage types consts).types.insertPairs
            (moreTypes.map fun d => (d.name.name, d)) := by
        show Table.ofList _ = Table.insertPairs (Table.ofList _) _
        rw [List.map_append]
        exact List.foldl_append
      unfold Package.type?
      rw [hboth, Table.get?_insertPairs_of_notMem hnew]
    · have hnone : moreConsts.find? (fun c => c.name == name) = none := by
        rw [List.find?_eq_none]
        intro c hc hname'
        exact hconsts c hc (beq_iff_eq.mp hname' ▸ hname)
      refine List.find?_append.trans ?_
      rw [hnone]
      exact Option.or_none
  · rw [if_neg hq, if_neg hq]
    exact Or.inr ⟨_, rfl, rfl⟩

namespace Scope

def spellings (sc : Scope) : List Spelling :=
  (sc.types.values.flatMap fun d => Source.typeSpelled d.spec.type) ++
    (sc.consts.flatMap fun d =>
      d.expr.toList.flatMap Source.exprSpelled ++ d.type.toList.flatMap Source.typeSpelled) ++
    sc.methods.flatMap fun m =>
      Source.paramsSpelled m.decl.params ++ Source.paramsSpelled m.decl.results

theorem Spells.mem_spellings {sc : Scope} {file : String} {s : Spelling} (h : sc.Spells file s) :
    s ∈ sc.spellings := by
  unfold spellings
  rw [List.mem_append, List.mem_append, List.mem_flatMap, List.mem_flatMap, List.mem_flatMap]
  cases h with
  | type hd hs => exact Or.inl (Or.inl ⟨_, Table.mem_values_iff.mpr ⟨_, hd⟩, hs⟩)
  | @value d expr s hd hexpr hs =>
      refine Or.inl (Or.inr ⟨d, hd, List.mem_append_left _ ?_⟩)
      rw [hexpr]
      exact List.mem_flatMap.mpr ⟨expr, List.mem_singleton_self _, hs⟩
  | @constType d type s hd htype hs =>
      refine Or.inl (Or.inr ⟨d, hd, List.mem_append_right _ ?_⟩)
      rw [htype]
      exact List.mem_flatMap.mpr ⟨type, List.mem_singleton_self _, hs⟩
  | params hm hs => exact Or.inr ⟨_, hm, List.mem_append_left _ hs⟩
  | results hm hs => exact Or.inr ⟨_, hm, List.mem_append_right _ hs⟩

end Scope

def structTypes : List TypeDef :=
  [.plain (.declared "d" "E") (.struct [⟨"f", .named (.declared "d" "u"), none, false, "d"⟩]),
    .plain (.declared "d" "u") (.basic .int)]

def maxConst (name : String) : ConstDef := ⟨name, .basic .untypedInt, .int 10, none⟩

def spareTypes : List TypeDef := [.plain (.declared "d" "t") (.basic .int)]

def plainAnswers : Answers := declaringAnswers structTypes [maxConst "Max"]

def spareAnswers : Answers :=
  declaringAnswers (structTypes ++ spareTypes) ([maxConst "Max"] ++ [maxConst "max"])

/-- The alias `T` of `d.E`, and the constant `X` with the value of `d.Max`. -/
def borrowingPackage : LoadedPackage :=
  .ofText "package p\n\nimport \"d\"\n\ntype T = d.E\n\nconst X = d.Max\n"

theorem spellings_borrowingPackage :
    ((collect borrowingPackage).under plainAnswers).scope.spellings = [.qualified "d" "Max"] := by
  decide +kernel

theorem not_exposed_borrowingPackage {q name : String}
    (h : ((collect borrowingPackage).under plainAnswers).scope.Exposed plainAnswers q name) :
    name ≠ "t" ∧ name ≠ "max" := by
  induction h with
  | @exported q name hexported =>
      constructor
      · rintro rfl
        exact absurd hexported (by decide)
      · rintro rfl
        exact absurd hexported (by decide)
  | qualified hs hb =>
      have hmem := hs.mem_spellings
      rw [spellings_borrowingPackage] at hmem
      cases List.mem_singleton.mp hmem
      decide
  | dotted hs hlocal hb =>
      have hmem := hs.mem_spellings
      rw [spellings_borrowingPackage] at hmem
      cases List.mem_singleton.mp hmem
  | @ofType q name r other package d hname hq hd hleaf ih =>
      obtain ⟨rfl, rfl⟩ := answer_of_declaring hq
      have hpair : (name, d) ∈ structTypes.map fun d => (d.name.name, d) :=
        (Table.get?_ofList_iff (by decide)).mp hd
      have hother : other = "E" ∨ other = "u" := by
        rcases List.mem_cons.mp hpair with heq | hpair
        · cases heq
          rcases List.mem_cons.mp hleaf with heq | hleaf
          · cases heq
            exact Or.inl rfl
          · cases List.mem_singleton.mp hleaf
            exact Or.inr rfl
        · cases List.mem_singleton.mp hpair
          rcases List.mem_cons.mp hleaf with heq | hleaf
          · cases heq
            exact Or.inr rfl
          · cases List.mem_singleton.mp hleaf
      rcases hother with rfl | rfl
      · decide
      · decide
  | ofConst hname hq hc hleaf ih =>
      obtain ⟨rfl, rfl⟩ := answer_of_declaring hq
      cases List.mem_singleton.mp (List.mem_of_find?_eq_some hc)
      cases List.mem_singleton.mp hleaf

theorem under_checkGo_of_like_borrowingPackage :
    plainAnswers.Like
        (((collect borrowingPackage).under plainAnswers).scope.Exposed plainAnswers) spareAnswers ∧
      (checkGo borrowingPackage).under spareAnswers =
        (checkGo borrowingPackage).under plainAnswers := by
  have hlike : plainAnswers.Like
      (((collect borrowingPackage).under plainAnswers).scope.Exposed plainAnswers)
      spareAnswers := by
    refine like_declaringAnswers _ _ (fun d hd hshown => ?_) fun c hc hshown => ?_
    · cases List.mem_singleton.mp hd
      exact (not_exposed_borrowingPackage hshown).1 rfl
    · cases List.mem_singleton.mp hc
      exact (not_exposed_borrowingPackage hshown).2 rfl
  exact ⟨hlike, under_checkGo_of_like _ _ _ hlike⟩

def foundConstants (text : String) (answers : Answers) : List String :=
  ((checkGo (.ofText text)).under answers).package.consts.map ConstDef.name

/-- An unexported type and an unexported constant, which nothing mentions, make a difference all
the same: behind a qualifier, without one, and in a conversion. -/
theorem unexported_seen :
    (declaringAnswers [] []).Like (fun _ name => isExported name = true)
      (declaringAnswers spareTypes [maxConst "max"]) ∧
    forall text, text ∈ ["package p\n\nimport \"d\"\n\nconst X = d.max\n",
        "package p\n\nimport . \"d\"\n\nconst X = max\n",
        "package p\n\nimport \"d\"\n\nconst X = d.t(5)\n"] ->
      foundConstants text (declaringAnswers [] []) = [] ∧
        foundConstants text (declaringAnswers spareTypes [maxConst "max"]) = ["X"] := by
  refine ⟨like_declaringAnswers [] [] ?_ ?_, by decide +kernel⟩
  · intro d hd
    cases List.mem_singleton.mp hd
    decide
  · intro c hc
    cases List.mem_singleton.mp hc
    decide

end GoAtlas
