import GoAtlas.Proofs.Check.Termination
import GoAtlas.Proofs.Constant.Kinds

/-!
# What stands behind names

The name of a type leads through aliases and declarations to what stands behind it.  Most ways do
not depend on the state of a check: they end at a type that is spelled out, at a type of another
package or at nothing.  All other ways end at composite types or in a circle.  A check finds what
stands behind a name wherever it asks, as long as nothing on the way is pending; and nothing on
the way is pending while a constant is evaluated, because what evaluates constants is composite.
-/

namespace GoAtlas

open Scope (Pending)

def GoType.IsVague : GoType -> Prop
  | .basic kind => kind = .invalid
  | .named _ => False
  | _ => True

theorem GoType.IsVague.shape {type : GoType} (h : type.IsVague) : type.shape? = some type := by
  cases type with
  | named name => exact h.elim
  | _ => rfl

namespace Scope

/-!
# Spelled types
-/

def alias? (s : Scope) (tparams : List String) : Source.TypeExpr -> Option String
  | .name x =>
      if tparams.contains x.text then none
      else (s.types.get? x.text).bind fun d => if d.spec.isAlias then some x.text else none
  | .generic _ base _ => alias? s tparams base
  | .paren _ inner => alias? s tparams inner
  | .negated _ inner => alias? s tparams inner
  | _ => none

/-- A pass that finds a type in any state, perhaps with a complaint that there is none. -/
inductive Tells : Resolve GoType -> GoType -> Prop where
  | pure (type : GoType) : Tells (Pure.pure type) type
  | invalid (file : String) (line : Nat) (complaint : Complaint) :
      Tells (Resolve.invalid file line complaint) .invalid

theorem Tells.result {m : Resolve GoType} {type : GoType} (h : Tells m type) (answers : Answers)
    (p : Progress) : (m.outcome answers p).1 = type := by
  cases h with
  | pure | invalid => rfl

def TellsOrVague (F : Links -> Resolve GoType) : Prop :=
  (exists type, forall links, Tells (F links) type) ∨
    forall links answers p, ((F links).outcome answers p).1.IsVague

section Spelled

variable {sc : Scope} {file : String} {tparams : List String}

theorem tells_namedType {x : Source.Extent} (h : sc.alias? tparams (.name x) = none) :
    exists type, forall links, Tells (sc.namedType links file tparams x) type := by
  unfold alias? at h
  unfold namedType
  dsimp only
  split
  · exact ⟨_, fun _ => .pure _⟩
  · next hparam =>
      rw [if_neg hparam] at h
      split
      · next d hd =>
          rw [hd] at h
          split
          · next halias =>
              rw [Option.bind_some, if_pos halias] at h
              cases h
          · exact ⟨_, fun _ => .pure _⟩
      · split
        · exact ⟨_, fun _ => .invalid _ _ _⟩
        · split
          · exact ⟨_, fun _ => .pure _⟩
          · split
            · exact ⟨_, fun _ => .pure _⟩
            · exact ⟨_, fun _ => .invalid _ _ _⟩

theorem tells_qualifiedType (sc : Scope) (file : String) (label name : Source.Extent) :
    exists type, Tells (sc.qualifiedType file label name) type := by
  unfold qualifiedType
  split
  · exact ⟨_, .invalid _ _ _⟩
  · split
    · split
      · exact ⟨_, .pure _⟩
      · exact ⟨_, .invalid _ _ _⟩
    · split
      · exact ⟨_, .pure _⟩
      · split
        · exact ⟨_, .invalid _ _ _⟩
        · split
          · exact ⟨_, .pure _⟩
          · split
            · exact ⟨_, .pure _⟩
            · exact ⟨_, .invalid _ _ _⟩

theorem vague_interfaceElems (links : Links) (answers : Answers)
    (methods : List (InterfaceMethod GoType)) (embedded : List GoType)
    (elems : List Source.InterfaceElem) (p : Progress) :
    ((sc.interfaceElems links file tparams methods embedded elems).outcome answers
      p).1.IsVague := by
  induction elems generalizing methods embedded p with
  | nil =>
      simp only [interfaceElems]
      exact trivial
  | cons elem rest ih =>
      cases elem with
      | method x name params results =>
          simp only [interfaceElems, Resolve.outcome_bind]
          exact ih _ _ _
      | union terms =>
          simp only [interfaceElems, Resolve.outcome_bind]
          exact ih _ _ _

theorem tellsOrVague_resolveType (file : String) (e : Source.TypeExpr)
    (h : sc.alias? tparams e = none) :
    TellsOrVague fun links => sc.resolveType links file tparams e := by
  match e with
  | .name x =>
      simp only [resolveType]
      exact Or.inl (tells_namedType h)
  | .qualified _ label name =>
      simp only [resolveType]
      obtain ⟨type, htype⟩ := tells_qualifiedType sc file label name
      exact Or.inl ⟨type, fun _ => htype⟩
  | .generic _ base _ =>
      simp only [resolveType]
      exact tellsOrVague_resolveType file base h
  | .paren _ inner =>
      simp only [resolveType]
      exact tellsOrVague_resolveType file inner h
  | .negated _ inner =>
      simp only [resolveType]
      exact tellsOrVague_resolveType file inner h
  | .array _ len elem =>
      refine Or.inr fun links answers p => ?_
      simp only [resolveType, Resolve.outcome_bind]
      split
      · exact trivial
      · exact rfl
  | .interface _ elems =>
      refine Or.inr fun links answers p => ?_
      simp only [resolveType]
      exact vague_interfaceElems links answers [] [] elems p
  | .pointer _ _ | .slice _ _ | .map _ _ _ | .chan _ _ _ | .func _ _ _ | .struct _ _ =>
      refine Or.inr fun links answers p => ?_
      simp only [resolveType, Resolve.outcome_bind]
      exact trivial

theorem resolveType_of_alias (links : Links) {name : String} (e : Source.TypeExpr)
    (h : sc.alias? tparams e = some name) :
    sc.resolveType links file tparams e = links.aliased name := by
  match e with
  | .name x =>
      unfold alias? at h
      split at h
      · cases h
      · next hparam =>
          obtain ⟨d, hd, halias⟩ := Option.bind_eq_some_iff.mp h
          split at halias
          · next hspec =>
              cases halias
              simp only [resolveType, namedType, if_neg hparam, hd, if_pos hspec]
          · cases halias
  | .generic _ base _ =>
      simp only [resolveType]
      exact resolveType_of_alias links base h
  | .paren _ inner =>
      simp only [resolveType]
      exact resolveType_of_alias links inner h
  | .negated _ inner =>
      simp only [resolveType]
      exact resolveType_of_alias links inner h

end Spelled

/-!
# Ways that settle
-/

/-- What is looked for: the type that is spelled somewhere, the type of an alias, the structure of a
declared type, or the structure behind a type with a number of steps left. -/
inductive Sought where
  | spelled (file : String) (tparams : List String) (e : Source.TypeExpr)
  | aliased (name : String)
  | declared (name : String)
  | behind (fuel : Nat) (type : GoType)

/-- The way leads to the type through so many declarations of the package, one inside the other. -/
inductive Settles (sc : Scope) (answers : Answers) : Nat -> Sought -> GoType -> Prop where
  | told {file : String} {tparams : List String} {e : Source.TypeExpr} {type : GoType}
      (hname : sc.alias? tparams e = none)
      (h : forall links, Tells (sc.resolveType links file tparams e) type) :
      Settles sc answers 0 (.spelled file tparams e) type
  | named {file : String} {tparams : List String} {e : Source.TypeExpr} {name : String}
      {type : GoType} {n : Nat} (hname : sc.alias? tparams e = some name)
      (h : Settles sc answers n (.aliased name) type) :
      Settles sc answers n (.spelled file tparams e) type
  | aliased {name : String} {d : TypeDecl} {type : GoType} {n : Nat}
      (hd : sc.types.get? name = some d)
      (h : Settles sc answers n (.spelled d.file d.spec.params d.spec.type) type) :
      Settles sc answers (n + 1) (.aliased name) type
  | noAlias {name : String} (hd : sc.types.get? name = none) :
      Settles sc answers 0 (.aliased name) .invalid
  | declared {name : String} {d : TypeDecl} {type shape : GoType} {n m : Nat}
      (hd : sc.types.get? name = some d)
      (h : Settles sc answers n (.spelled d.file d.spec.params d.spec.type) type)
      (hshape : Settles sc answers m (.behind chainLimit type) shape) :
      Settles sc answers (max n m + 1) (.declared name) shape
  | noType {name : String} (hd : sc.types.get? name = none) :
      Settles sc answers 0 (.declared name) .invalid
  | spent {type : GoType} : Settles sc answers 0 (.behind 0 type) .invalid
  | here {fuel : Nat} {type shape : GoType} (h : type.shape? = some shape) :
      Settles sc answers 0 (.behind (fuel + 1) type) shape
  | own {fuel : Nat} {name : String} {shape : GoType} {n : Nat}
      (h : Settles sc answers n (.declared name) shape) :
      Settles sc answers n (.behind (fuel + 1) (.named (.declared sc.path name))) shape
  | absent {fuel : Nat} {q name : String} (hq : q ≠ sc.path)
      (h : ((answers q).toOption.bind fun package => package.type? name) = none) :
      Settles sc answers 0 (.behind (fuel + 1) (.named (.declared q name))) .invalid
  | direct {fuel : Nat} {q name : String} {d : TypeDef} (hq : q ≠ sc.path)
      (h : ((answers q).toOption.bind fun package => package.type? name) = some d)
      (hd : d.isAlias = false) :
      Settles sc answers 0 (.behind (fuel + 1) (.named (.declared q name))) d.underlying
  | through {fuel : Nat} {q name : String} {d : TypeDef} {shape : GoType} {n : Nat}
      (hq : q ≠ sc.path)
      (h : ((answers q).toOption.bind fun package => package.type? name) = some d)
      (hd : d.isAlias = true) (hnext : Settles sc answers n (.behind fuel d.underlying) shape) :
      Settles sc answers n (.behind (fuel + 1) (.named (.declared q name))) shape

variable {sc : Scope} {answers : Answers}

theorem Settles.unique {n m : Nat} {sought : Sought} {type other : GoType}
    (h : sc.Settles answers n sought type) (h' : sc.Settles answers m sought other) :
    n = m ∧ type = other := by
  induction h generalizing m other with
  | told hname h =>
      cases h' with
      | told _ h' =>
          have hresult := (h noLinks).result answers .blank
          exact ⟨rfl, hresult.symm.trans ((h' noLinks).result answers .blank)⟩
      | named hname' => cases hname.symm.trans hname'
  | named hname _ ih =>
      cases h' with
      | told hname' => cases hname.symm.trans hname'
      | named hname' h' =>
          cases hname.symm.trans hname'
          exact ih h'
  | aliased hd _ ih =>
      cases h' with
      | aliased hd' h' =>
          cases hd.symm.trans hd'
          obtain ⟨rfl, rfl⟩ := ih h'
          exact ⟨rfl, rfl⟩
      | noAlias hd' => cases hd.symm.trans hd'
  | noAlias hd =>
      cases h' with
      | aliased hd' => cases hd.symm.trans hd'
      | noAlias => exact ⟨rfl, rfl⟩
  | declared hd _ _ ih ihshape =>
      cases h' with
      | declared hd' h' hshape' =>
          cases hd.symm.trans hd'
          obtain ⟨rfl, rfl⟩ := ih h'
          obtain ⟨rfl, rfl⟩ := ihshape hshape'
          exact ⟨rfl, rfl⟩
      | noType hd' => cases hd.symm.trans hd'
  | noType hd =>
      cases h' with
      | declared hd' => cases hd.symm.trans hd'
      | noType => exact ⟨rfl, rfl⟩
  | spent =>
      cases h' with
      | spent => exact ⟨rfl, rfl⟩
  | here h =>
      cases h' with
      | here h' => exact ⟨rfl, Option.some.inj (h.symm.trans h')⟩
      | own | absent | direct | through => cases h
  | own _ ih =>
      cases h' with
      | here h' => cases h'
      | own h' => exact ih h'
      | absent hq | direct hq | through hq => exact absurd rfl hq
  | absent hq h =>
      cases h' with
      | here h' => cases h'
      | own => exact absurd rfl hq
      | absent => exact ⟨rfl, rfl⟩
      | direct _ h' | through _ h' => cases h.symm.trans h'
  | direct hq h hd =>
      cases h' with
      | here h' => cases h'
      | own => exact absurd rfl hq
      | absent _ h' => cases h.symm.trans h'
      | direct _ h' =>
          cases h.symm.trans h'
          exact ⟨rfl, rfl⟩
      | through _ h' hd' =>
          cases h.symm.trans h'
          cases hd.symm.trans hd'
  | through hq h hd _ ih =>
      cases h' with
      | here h' => cases h'
      | own => exact absurd rfl hq
      | absent _ h' => cases h.symm.trans h'
      | direct _ h' hd' =>
          cases h.symm.trans h'
          cases hd.symm.trans hd'
      | through _ h' _ hnext' =>
          cases h.symm.trans h'
          exact ih hnext'

theorem Settles.spelled {n : Nat} {name : String} {type : GoType} {d : TypeDecl}
    (h : sc.Settles answers n (.aliased name) type) (hd : sc.types.get? name = some d) :
    exists m, sc.Settles answers m (.spelled d.file d.spec.params d.spec.type) type := by
  cases h with
  | aliased hd' h =>
      cases hd.symm.trans hd'
      exact ⟨_, h⟩
  | noAlias hd' => cases hd.symm.trans hd'

/-!
# Reliable states
-/

def SettlesAs (sc : Scope) (answers : Answers) (n : Nat) : (k : Pending) -> k.Result -> Prop
  | .alias name, type => sc.Settles answers n (.aliased name) type
  | .type name, shape => sc.Settles answers n (.declared name) shape
  | .const _, _ => False

def Apt (sc : Scope) (answers : Answers) (sought : Sought) (type : GoType) : Prop :=
  (exists n, sc.Settles answers n sought type) ∨
    type.IsVague ∧ forall n other, ¬ sc.Settles answers n sought other

def Fits (sc : Scope) (answers : Answers) (x : Valued) : Prop :=
  forall n shape, sc.Settles answers n (.behind chainLimit x.2) shape ->
    exists kind, shape = .basic kind ∧ Constant.Represents kind x.1

/-- What can be relied on of a result: types are apt, and constants that are declared with a type
fit it. -/
def Judges (sc : Scope) (answers : Answers) : (k : Pending) -> k.Result -> Prop
  | .alias name, type => sc.Apt answers (.aliased name) type
  | .type name, shape => sc.Apt answers (.declared name) shape
  | .const i, value => forall x d, value = some x -> sc.consts[i]? = some d ->
      d.type.isSome = true -> sc.Fits answers x

theorem Apt.eq {sought : Sought} {type other : GoType} {n : Nat} (h : sc.Apt answers sought type)
    (hsettles : sc.Settles answers n sought other) : type = other := by
  rcases h with ⟨m, htype⟩ | ⟨_, hnot⟩
  · exact (htype.unique hsettles).2
  · exact absurd hsettles (hnot n other)

theorem judges_of_settlesAs {n : Nat} {k : Pending} {a : k.Result}
    (h : sc.SettlesAs answers n k a) : sc.Judges answers k a := by
  match k with
  | .alias _ | .type _ => exact Or.inl ⟨n, h⟩
  | .const _ => exact h.elim

theorem eq_of_judges {n : Nat} {k : Pending} {a b : k.Result} (hb : sc.Judges answers k b)
    (ha : sc.SettlesAs answers n k a) : b = a := by
  match k with
  | .alias _ | .type _ => exact Apt.eq hb ha
  | .const _ => exact ha.elim

theorem SettlesAs.unique {n m : Nat} {k : Pending} {a b : k.Result}
    (h : sc.SettlesAs answers n k a) (h' : sc.SettlesAs answers m k b) : n = m ∧ a = b := by
  match k with
  | .alias _ | .type _ => exact Settles.unique h h'
  | .const _ => exact h.elim

structure Reliable (sc : Scope) (answers : Answers) (p : Progress) : Prop where
  told : p.Told answers
  judged : forall k a, p.recalled k = some a -> sc.Judges answers k a

namespace Reliable

variable {p : Progress}

theorem complained (h : sc.Reliable answers p) (file : String) (line : Nat) (isSoft : Bool)
    (complaint : Complaint) : sc.Reliable answers (p.complained file line isSoft complaint) where
  told := h.told
  judged k := by
    match k with
    | .alias _ | .type _ | .const _ => exact h.judged _

theorem packageAt (h : sc.Reliable answers p) (path : String) :
    sc.Reliable answers ((Resolve.packageAt path).outcome answers p).2 := by
  rcases Resolve.outcome_packageAt h.told path with ⟨packages, heq, htold⟩
  rw [heq]
  refine ⟨htold, fun k => ?_⟩
  match k with
  | .alias _ | .type _ | .const _ => exact h.judged _

theorem record (h : sc.Reliable answers p) {k : Pending} {a : k.Result}
    (ha : sc.Judges answers k a) : sc.Reliable answers (p.record k a) where
  told := by
    unfold Progress.Told
    rw [Progress.packages_record]
    exact h.told
  judged := Progress.forall_recalled_record h.judged ha

theorem tells (h : sc.Reliable answers p) {m : Resolve GoType} {type : GoType}
    (hm : Tells m type) : sc.Reliable answers (m.outcome answers p).2 := by
  cases hm with
  | pure => exact h
  | invalid file line complaint => exact h.complained file line false complaint

end Reliable

def Above (sc : Scope) (answers : Answers) (n : Nat) (pending : List Pending) : Prop :=
  forall k, k ∈ pending -> forall m a, sc.SettlesAs answers m k a -> n < m

theorem Above.mono {n m : Nat} {pending : List Pending} (h : sc.Above answers n pending)
    (hle : m ≤ n) : sc.Above answers m pending :=
  fun k hk i a ha => Nat.lt_of_le_of_lt hle (h k hk i a ha)

theorem Above.enter {n : Nat} {pending : List Pending} (h : sc.Above answers (n + 1) pending)
    {k : Pending} {a : k.Result} (ha : sc.SettlesAs answers (n + 1) k a) :
    sc.Above answers n (k :: pending) := by
  refine List.forall_mem_cons.mpr ⟨fun m b hb => ?_, h.mono (Nat.le_succ n)⟩
  rw [← (ha.unique hb).1]
  exact Nat.lt_succ_self n

theorem Above.not_mem {n : Nat} {pending : List Pending} (h : sc.Above answers n pending)
    {k : Pending} {a : k.Result} (ha : sc.SettlesAs answers n k a) : k ∉ pending :=
  fun hk => Nat.lt_irrefl n (h k hk n a ha)

/-!
# Checks find what settles
-/

/-- The pass finds the result, and leaves what can be relied on. -/
structure Finds (sc : Scope) (answers : Answers) {α : Type} (m : Resolve α) (p : Progress)
    (a : α) : Prop where
  result : (m.outcome answers p).1 = a
  reliable : sc.Reliable answers (m.outcome answers p).2

theorem Finds.pure {p : Progress} (hp : sc.Reliable answers p) {α : Type} (a : α) :
    sc.Finds answers (Pure.pure a) p a := ⟨rfl, hp⟩

theorem Finds.bind {p : Progress} {α β : Type} {m : Resolve α} {f : α -> Resolve β} {a : α} {b : β}
    (hm : sc.Finds answers m p a) (hf : sc.Finds answers (f a) (m.outcome answers p).2 b) :
    sc.Finds answers (m >>= f) p b := by
  constructor
  · rw [Resolve.outcome_bind, hm.result]
    exact hf.result
  · rw [Resolve.outcome_bind, hm.result]
    exact hf.reliable

def Sought.pass (sc : Scope) (links : Links) : Sought -> Resolve GoType
  | .spelled file tparams e => sc.resolveType links file tparams e
  | .aliased name => links.aliased name
  | .declared name => links.underlying name
  | .behind fuel type => sc.underlyingWithin links fuel type

section Finding

variable {fuel : Nat} {pending : List Pending} {p : Progress}

theorem exists_outcome_foreign (hp : sc.Reliable answers p) (links : Links) (fuel : Nat)
    {q : String} (name : String) (hq : q ≠ sc.path) :
    exists p', sc.Reliable answers p' ∧
      (sc.underlyingWithin links (fuel + 1) (.named (.declared q name))).outcome answers p =
        match (answers q).toOption.bind fun package => package.type? name with
        | none => (.invalid, p')
        | some d =>
            if d.isAlias then (sc.underlyingWithin links fuel d.underlying).outcome answers p'
            else (d.underlying, p') := by
  let w : Work := ⟨p, [], ∅⟩
  refine ⟨(w.ask answers q).2.progress, hp.packageAt q, ?_⟩
  rw [← (Work.told_ask (w := w) hp.told q).1]
  exact outcome_underlyingWithin_succ links fuel name hq w

theorem finds_follow {n : Nat} {k : Pending} {a : k.Result} (ha : sc.SettlesAs answers n k a)
    (hk : k ∉ pending) (hp : sc.Reliable answers p)
    (hmissing : sc.saying? k = none -> k.nothing = a)
    (hbody : forall d, sc.saying? k = some d ->
      sc.Finds answers (d.body (sc.linksWithin fuel (k :: pending))) p a) :
    sc.Finds answers ((sc.linksWithin (fuel + 1) pending).follow k) p a := by
  have hfound : (((sc.linksWithin (fuel + 1) pending).follow k).outcome answers p).1 = a ∧
      sc.Reliable answers (((sc.linksWithin (fuel + 1) pending).follow k).outcome answers p).2 := by
    refine follow_cases (P := fun r => r.1 = a ∧ sc.Reliable answers r.2) ?_ ?_ ?_ ?_
    · exact fun b hb => ⟨eq_of_judges (hp.judged k b hb) ha, hp⟩
    · exact fun hnone => ⟨hmissing hnone, hp⟩
    · exact fun _ _ hpending => absurd hpending hk
    · intro d hd _
      have hsaid := hbody d hd
      refine ⟨hsaid.result, ?_⟩
      rw [hsaid.result]
      exact hsaid.reliable.record (judges_of_settlesAs ha)
  exact ⟨hfound.1, hfound.2⟩

/-- Whatever settles is found in every reliable state, unless something on its way is pending. -/
theorem Settles.finds {n : Nat} {sought : Sought} {type : GoType}
    (h : sc.Settles answers n sought type) (hample : sc.Ample fuel pending)
    (habove : sc.Above answers n pending) (hp : sc.Reliable answers p) :
    sc.Finds answers (sought.pass sc (sc.linksWithin fuel pending)) p type := by
  induction h generalizing fuel pending p with
  | told _ h => exact ⟨(h _).result answers p, hp.tells (h _)⟩
  | named hname _ ih =>
      simp only [Sought.pass, resolveType_of_alias _ _ hname]
      exact ih hample habove hp
  | @aliased name d type n hd h ih =>
      obtain ⟨fuel, rfl⟩ := hample.exists_succ
      have hsettles : sc.SettlesAs answers (n + 1) (.alias name) type := .aliased hd h
      have hk := habove.not_mem hsettles
      refine finds_follow hsettles hk hp ?_ ?_
      · intro hmissing
        cases hd.symm.trans (Option.map_eq_none_iff.mp hmissing)
      · intro said hsaid
        have hample := hample.enter (mem_allPending_of_saying hsaid) hk
        obtain ⟨_, hd', rfl⟩ := Option.map_eq_some_iff.mp hsaid
        cases hd.symm.trans hd'
        exact ih hample (habove.enter hsettles) hp
  | @noAlias name hd =>
      obtain ⟨fuel, rfl⟩ := hample.exists_succ
      have hsettles : sc.SettlesAs answers 0 (.alias name) GoType.invalid := .noAlias hd
      refine finds_follow hsettles (habove.not_mem hsettles) hp (fun _ => rfl) ?_
      intro said hsaid
      obtain ⟨_, hd', _⟩ := Option.map_eq_some_iff.mp hsaid
      cases hd.symm.trans hd'
  | @declared name d type shape n m hd h hshape ih ihshape =>
      obtain ⟨fuel, rfl⟩ := hample.exists_succ
      have hsettles : sc.SettlesAs answers (max n m + 1) (.type name) shape :=
        .declared hd h hshape
      have hk := habove.not_mem hsettles
      refine finds_follow hsettles hk hp ?_ ?_
      · intro hmissing
        cases hd.symm.trans (Option.map_eq_none_iff.mp hmissing)
      · intro said hsaid
        have hample := hample.enter (mem_allPending_of_saying hsaid) hk
        have habove := habove.enter hsettles
        obtain ⟨_, hd', rfl⟩ := Option.map_eq_some_iff.mp hsaid
        cases hd.symm.trans hd'
        have htype := ih hample (habove.mono (Nat.le_max_left n m)) hp
        exact htype.bind (ihshape hample (habove.mono (Nat.le_max_right n m)) htype.reliable)
  | @noType name hd =>
      obtain ⟨fuel, rfl⟩ := hample.exists_succ
      have hsettles : sc.SettlesAs answers 0 (.type name) GoType.invalid := .noType hd
      refine finds_follow hsettles (habove.not_mem hsettles) hp (fun _ => rfl) ?_
      intro said hsaid
      obtain ⟨_, hd', _⟩ := Option.map_eq_some_iff.mp hsaid
      cases hd.symm.trans hd'
  | spent => exact .pure hp _
  | here h =>
      simp only [Sought.pass, underlyingWithin_here h]
      exact .pure hp _
  | own _ ih =>
      simp only [Sought.pass, underlyingWithin_own]
      exact ih hample habove hp
  | absent hq h =>
      obtain ⟨p', hp', heq⟩ := exists_outcome_foreign hp (sc.linksWithin fuel pending) _ _ hq
      rw [h] at heq
      exact ⟨congrArg Prod.fst heq, (congrArg Prod.snd heq) ▸ hp'⟩
  | direct hq h hd =>
      obtain ⟨p', hp', heq⟩ := exists_outcome_foreign hp (sc.linksWithin fuel pending) _ _ hq
      rw [h] at heq
      dsimp only at heq
      rw [hd, if_neg Bool.false_ne_true] at heq
      exact ⟨congrArg Prod.fst heq, (congrArg Prod.snd heq) ▸ hp'⟩
  | through hq h hd _ ih =>
      obtain ⟨p', hp', heq⟩ := exists_outcome_foreign hp (sc.linksWithin fuel pending) _ _ hq
      rw [h] at heq
      dsimp only at heq
      rw [if_pos hd] at heq
      have hnext := ih hample habove hp'
      exact ⟨(congrArg Prod.fst heq).trans hnext.result, (congrArg Prod.snd heq) ▸ hnext.reliable⟩

end Finding

end Scope
end GoAtlas
