import GoAtlas.Proofs.Check.Pending

/-!
# Trails

Whatever its links are, a pass over the sources does four things one after another: it
complains, follows a link, looks behind a type, or stops with a result.  Two scopes that differ in
the packages of their imports, but not in what is spelled of them, lead their passes along the
same trail, and the types that come up on the way are known ones.  What holds of complaints, links
and structures holds of every pass by induction on its trail.
-/

namespace GoAtlas

namespace Source

/-!
# Names in the place of values
-/

/-- A name that stands for a value, or behind a qualifier for the target of a conversion. -/
inductive Spelling where
  | plain (name : String)
  | qualified (label name : String)
  deriving Repr, DecidableEq

def targetSpelled : Expr -> List Spelling
  | .selector _ operand field => [.qualified operand.extent.text field.text]
  | .paren _ inner => targetSpelled inner
  | _ => []

mutual

def typeSpelled : TypeExpr -> List Spelling
  | .name _ => []
  | .qualified _ _ _ => []
  | .generic _ base _ => typeSpelled base
  | .paren _ inner => typeSpelled inner
  | .negated _ inner => typeSpelled inner
  | .pointer _ elem => typeSpelled elem
  | .slice _ elem => typeSpelled elem
  | .array _ len elem => typeSpelled elem ++ exprSpelled len
  | .map _ key value => typeSpelled key ++ typeSpelled value
  | .chan _ _ elem => typeSpelled elem
  | .func _ params results => paramsSpelled params ++ paramsSpelled results
  | .struct _ fields => fieldsSpelled fields
  | .interface _ elems => elemsSpelled elems

def typesSpelled : List TypeExpr -> List Spelling
  | [] => []
  | type :: rest => typeSpelled type ++ typesSpelled rest

def paramsSpelled : List Param -> List Spelling
  | [] => []
  | .plain _ type :: rest => typeSpelled type ++ paramsSpelled rest
  | .variadic _ type :: rest => typeSpelled type ++ paramsSpelled rest

def fieldsSpelled : List FieldDecl -> List Spelling
  | [] => []
  | .named _ _ type _ :: rest => typeSpelled type ++ fieldsSpelled rest
  | .embedded _ _ type _ :: rest => typeSpelled type ++ fieldsSpelled rest

def elemsSpelled : List InterfaceElem -> List Spelling
  | [] => []
  | .method _ _ params results :: rest =>
      paramsSpelled params ++ paramsSpelled results ++ elemsSpelled rest
  | .union terms :: rest => typesSpelled terms ++ elemsSpelled rest

def exprSpelled : Expr -> List Spelling
  | .ident x => [.plain x.text]
  | .paren _ inner => exprSpelled inner
  | .selector _ (.ident label) field => [.qualified label.text field.text]
  | .unary _ _ operand => exprSpelled operand
  | .binary _ _ left right => exprSpelled left ++ exprSpelled right
  | .call _ function [argument] => targetSpelled function ++ exprSpelled argument
  | .conversion _ type operand => typeSpelled type ++ exprSpelled operand
  | _ => []

end

end Source

open Source (Spelling)
open Scope (Pending)

def Complaint.isOfBody : Complaint -> Bool
  | notType _ | undefined _ | notExported _ _ | arrayLength _ | fieldRedeclared _
  | duplicateMethod _ | invalidConstant _ _ => true
  | _ => false

/-- Two passes, one in each scope, that do the same for any links.  Types that they look behind
are known, and so are those that they find. -/
inductive Trail (sc other : Scope) (known : String -> String -> Prop)
    (Fault : Complaint -> Prop) :
    {α : Type} -> (Links -> Resolve α) -> (Links -> Resolve α) -> (α -> Prop) -> Prop where
  | pure {α : Type} {Q : α -> Prop} (a : α) (h : Q a) :
      Trail sc other known Fault (fun _ => Pure.pure a) (fun _ => Pure.pure a) Q
  | bind {α β : Type} {P : α -> Prop} {Q : β -> Prop} {F F' : Links -> Resolve α}
      {G G' : α -> Links -> Resolve β} (hF : Trail sc other known Fault F F' P)
      (hG : forall a, P a -> Trail sc other known Fault (G a) (G' a) Q) :
      Trail sc other known Fault (fun links => F links >>= fun a => G a links)
        (fun links => F' links >>= fun a => G' a links) Q
  | report (file : String) (line : Nat) (isSoft : Bool) {complaint : Complaint}
      (h : Fault complaint) :
      Trail sc other known Fault (fun _ => Resolve.report file line isSoft complaint)
        (fun _ => Resolve.report file line isSoft complaint) fun _ => True
  | follow {k : Pending} (h : sc.Has k) :
      Trail sc other known Fault (fun links => links.follow k) (fun links => links.follow k)
        (k.Knows known)
  | behind {type : GoType} (h : type.Within True known) :
      Trail sc other known Fault (fun links => sc.underlying links type)
        (fun links => other.underlying links type) fun type => type.Within True known

namespace Trail

/-!
# Rules
-/

section Rules

variable {sc other : Scope} {known : String -> String -> Prop} {Fault : Complaint -> Prop}
  {ε α β : Type}

def Evaluated (sc other : Scope) (known : String -> String -> Prop) (Fault : Complaint -> Prop)
    (F F' : Links -> ExceptT ε Resolve α) (Q : α -> Prop) : Prop :=
  Trail sc other known Fault (fun links => (F links).run) (fun links => (F' links).run)
    fun result => forall a, result = .ok a -> Q a

theorem aliased (name : String) :
    Trail sc other known Fault (fun links => links.aliased name) (fun links => links.aliased name)
      fun type => type.Within True known :=
  have h : sc.Has (.alias name) := trivial
  follow h

theorem underlying (name : String) :
    Trail sc other known Fault (fun links => links.underlying name)
      (fun links => links.underlying name) fun type => type.Within True known :=
  have h : sc.Has (.type name) := trivial
  follow h

theorem const {i : Nat} (hi : i < sc.consts.length) :
    Trail sc other known Fault (fun links => links.const i) (fun links => links.const i)
      fun value => forall x, value = some x -> x.2.Within True known :=
  have h : sc.Has (.const i) := hi
  follow h

theorem complain (file : String) (line : Nat) {complaint : Complaint} (h : Fault complaint) :
    Trail sc other known Fault (fun _ => Resolve.complain file line complaint)
      (fun _ => Resolve.complain file line complaint) fun _ => True :=
  report file line false h

theorem invalid (file : String) (line : Nat) {complaint : Complaint} (h : Fault complaint) :
    Trail sc other known Fault (fun _ => Resolve.invalid file line complaint)
      (fun _ => Resolve.invalid file line complaint) fun type => type.Within True known :=
  (complain file line h).bind fun _ _ => pure _ (GoType.within_invalid_iff.mpr trivial)

theorem value {Q : α -> Prop} (a : α) (h : Q a) :
    Evaluated (ε := ε) sc other known Fault (fun _ => Pure.pure a) (fun _ => Pure.pure a) Q := by
  refine pure (Except.ok a) ?_
  intro b hb
  cases hb
  exact h

theorem throw {Q : α -> Prop} (e : ε) :
    Evaluated (ε := ε) sc other known Fault (fun _ => MonadExceptOf.throw e)
      (fun _ => MonadExceptOf.throw e) Q := by
  refine pure (Except.error e) ?_
  intro b hb
  cases hb

theorem Evaluated.bind {P : α -> Prop} {Q : β -> Prop} {F F' : Links -> ExceptT ε Resolve α}
    {G G' : α -> Links -> ExceptT ε Resolve β} (hF : Evaluated sc other known Fault F F' P)
    (hG : forall a, P a -> Evaluated sc other known Fault (G a) (G' a) Q) :
    Evaluated sc other known Fault (fun links => F links >>= fun a => G a links)
      (fun links => F' links >>= fun a => G' a links) Q := by
  show Trail sc other known Fault
    (fun links => (F links).run >>= fun result => ExceptT.bindCont (fun a => G a links) result)
    (fun links => (F' links).run >>= fun result => ExceptT.bindCont (fun a => G' a links) result) _
  refine Trail.bind hF ?_
  intro result hresult
  cases result with
  | ok a => exact hG a (hresult a rfl)
  | error e => exact throw e

theorem lift {P : α -> Prop} {F F' : Links -> Resolve α}
    (h : Trail sc other known Fault F F' P) :
    Evaluated (ε := ε) sc other known Fault (fun links => ExceptT.lift (F links))
      (fun links => ExceptT.lift (F' links)) P := by
  have hbind : Trail sc other known Fault (fun links => Except.ok (ε := ε) <$> F links)
      (fun links => Except.ok <$> F' links) fun result => forall a, result = .ok a -> P a := by
    simp only [map_eq_pure_bind]
    exact h.bind fun a ha => value a ha
  exact hbind

theorem forM (items : List α) {F F' : Links -> α -> Resolve PUnit}
    (h : forall a, Trail sc other known Fault (fun links => F links a) (fun links => F' links a)
      fun _ => True) :
    Trail sc other known Fault (fun links => items.forM (F links))
      (fun links => items.forM (F' links)) fun _ => True := by
  induction items with
  | nil => exact pure _ trivial
  | cons a rest ih => exact (h a).bind fun _ _ => ih

theorem foldlM {P : β -> Prop} (items : List α) {F F' : Links -> β -> α -> Resolve β}
    (h : forall b a, a ∈ items -> P b -> Trail sc other known Fault (fun links => F links b a)
      (fun links => F' links b a) P) {b : β} (hb : P b) :
    Trail sc other known Fault (fun links => items.foldlM (F links) b)
      (fun links => items.foldlM (F' links) b) P := by
  induction items generalizing b with
  | nil => exact pure b hb
  | cons a rest ih =>
      simp only [List.foldlM_cons]
      have hrest := fun b => ih (b := b) fun b a' ha => h b a' (List.mem_cons_of_mem _ ha)
      exact (h b a List.mem_cons_self hb).bind hrest

theorem mapM {P : β -> Prop} (items : List α) {F F' : Links -> α -> Resolve β}
    (h : forall a, a ∈ items -> Trail sc other known Fault (fun links => F links a)
      (fun links => F' links a) P) :
    Trail sc other known Fault (fun links => items.mapM (F links))
      (fun links => items.mapM (F' links)) fun found => forall b, b ∈ found -> P b := by
  induction items with
  | nil => exact pure [] (List.forall_mem_nil _)
  | cons a rest ih =>
      simp only [List.mapM_cons]
      have hrest := ih fun a' ha => h a' (List.mem_cons_of_mem _ ha)
      refine (h a List.mem_cons_self).bind fun b hb => hrest.bind fun bs hbs => pure _ ?_
      exact List.forall_mem_cons.mpr ⟨hb, hbs⟩

end Rules

end Trail

/-!
# States along a trail
-/

theorem Resolve.state_packageAt (answers : Answers) (path : String) (p : Progress) :
    exists packages,
      ((Resolve.packageAt path).outcome answers p).2 = { p with packages := packages } := by
  unfold Resolve.outcome
  cases hknown : p.packages.get? path with
  | some known =>
      rw [Resolve.run_packageAt_known hknown]
      exact ⟨p.packages, rfl⟩
  | none =>
      rw [Resolve.run_packageAt_new hknown]
      exact ⟨_, rfl⟩

/-- A relation between states that one complaint, one package that is asked for and one link that
is followed do not leave. -/
structure Carries (sc : Scope) (answers : Answers) (links : Links) (Fault : Complaint -> Prop)
    (R : Progress -> Progress -> Prop) : Prop where
  refl : forall p, R p p
  trans : forall {p q r}, R p q -> R q r -> R p r
  complained : forall p file line isSoft {complaint}, Fault complaint ->
    R p (p.complained file line isSoft complaint)
  asked : forall p path, R p ((Resolve.packageAt path).outcome answers p).2
  followed : forall k p, sc.Has k -> R p ((links.follow k).outcome answers p).2

namespace Carries

variable {sc : Scope} {answers : Answers} {links : Links} {Fault : Complaint -> Prop}
  {R : Progress -> Progress -> Prop}

theorem underlyingWithin (h : Carries sc answers links Fault R) (fuel : Nat) (type : GoType)
    (p : Progress) : R p ((sc.underlyingWithin links fuel type).outcome answers p).2 := by
  induction fuel generalizing type p with
  | zero => exact h.refl p
  | succ fuel ih =>
      cases type with
      | named n =>
          cases n with
          | declared package name =>
              unfold Scope.underlyingWithin
              split
              · exact h.followed (.type name) p trivial
              · rw [Resolve.outcome_bind]
                refine h.trans (h.asked p package) ?_
                split
                · exact h.refl _
                · split
                  · exact h.refl _
                  · split
                    · exact ih _ _
                    · exact h.refl _
          | builtin name =>
              unfold Scope.underlyingWithin
              split
              · exact h.refl p
              · exact h.refl p
      | _ => exact h.refl p

/-- A pass along a trail does not leave the relation. -/
theorem trail (h : Carries sc answers links Fault R) {α : Type} {F F' : Links -> Resolve α}
    {Q : α -> Prop} (htrail : Trail sc sc (fun _ _ => True) Fault F F' Q) (p : Progress) :
    Q ((F links).outcome answers p).1 ∧ R p ((F links).outcome answers p).2 := by
  induction htrail generalizing p with
  | pure a ha => exact ⟨ha, h.refl p⟩
  | bind hF hG ihF ihG =>
      rw [Resolve.outcome_bind]
      obtain ⟨ha, hfirst⟩ := ihF p
      obtain ⟨hb, hsecond⟩ := ihG _ ha _
      exact ⟨hb, h.trans hfirst hsecond⟩
  | report file line isSoft hfault => exact ⟨trivial, h.complained p file line isSoft hfault⟩
  | follow hk => exact ⟨Pending.knows_all _ _, h.followed _ p hk⟩
  | behind htype => exact ⟨GoType.within_all _, h.underlyingWithin chainLimit _ p⟩

end Carries

theorem Resolve.forall₂_mapM {α β : Type} {answers : Answers} {I : Progress -> Prop}
    {R : Progress -> Progress -> Prop} {Q : α -> β -> Progress -> Prop} (hrefl : forall p, R p p)
    (htrans : forall {p q r}, R p q -> R q r -> R p r) (hkeep : forall {p q}, R p q -> I p -> I q)
    (hmono : forall {a b p q}, R p q -> Q a b p -> Q a b q) {items : List α} {f : α -> Resolve β}
    (h : forall a p, a ∈ items -> I p -> R p ((f a).outcome answers p).2 ∧
      Q a ((f a).outcome answers p).1 ((f a).outcome answers p).2) {p : Progress} (hp : I p) :
    R p ((items.mapM f).outcome answers p).2 ∧
      List.Forall₂ (fun a b => Q a b ((items.mapM f).outcome answers p).2) items
        ((items.mapM f).outcome answers p).1 := by
  induction items generalizing p with
  | nil => exact ⟨hrefl p, List.Forall₂.nil⟩
  | cons a rest ih =>
      simp only [List.mapM_cons, Resolve.outcome_bind, Resolve.outcome_pure]
      obtain ⟨hfirst, ha⟩ := h a p List.mem_cons_self hp
      obtain ⟨hsecond, hrest⟩ := ih (fun b q hb => h b q (List.mem_cons_of_mem _ hb))
        (hkeep hfirst hp)
      exact ⟨htrans hfirst hsecond, .cons (hmono hsecond ha) hrest⟩

namespace Scope

/-!
# Scopes that share what is spelled
-/

/-- Two scopes with the same declarations, whose imports show the same of what is spelled in
their files. -/
structure Shares (sc other : Scope) (spelled : String -> Spelling -> Prop) : Prop where
  path : other.path = sc.path
  types : other.types = sc.types
  consts : other.consts = sc.consts
  others : other.others = sc.others
  methods : other.methods = sc.methods
  importPaths : other.importPaths = sc.importPaths
  checkImports : other.checkImports = sc.checkImports
  dotType : forall file name, other.dotType? file name = sc.dotType? file name
  qualifiedType : forall file label name,
    other.qualifiedType file label name = sc.qualifiedType file label name
  dotConst : forall file name, sc.constIndex? name = none -> spelled file (.plain name) ->
    other.dotConst? file name = sc.dotConst? file name
  qualifiedConst : forall file label name, spelled file (.qualified label name) ->
    other.qualifiedConst file label name = sc.qualifiedConst file label name
  qualifiedTarget : forall file label name, spelled file (.qualified label name) ->
    other.qualifiedTarget? file label name = sc.qualifiedTarget? file label name

/-- The imports of a scope lead to known types only, as far as something is spelled. -/
structure Supplies (sc : Scope) (known : String -> String -> Prop)
    (spelled : String -> Spelling -> Prop) : Prop where
  own : forall name, known sc.path name
  dotType : forall file name type, sc.dotType? file name = some type -> type.Within True known
  opaqueType : forall file label b package name, sc.import? file label = some b ->
    b.package = some package -> isExported name = true -> package.isOpaque = true ->
      known package.path name
  importedType : forall file label b package name d, sc.import? file label = some b ->
    b.package = some package -> isExported name = true -> package.type? name = some d ->
      d.asType.Within True known
  dotConst : forall file name x, sc.constIndex? name = none -> spelled file (.plain name) ->
    sc.dotConst? file name = some x -> x.2.Within True known
  qualifiedConst : forall file label name x, spelled file (.qualified label name) ->
    sc.qualifiedConst file label name = .ok x -> x.2.Within True known
  qualifiedTarget : forall file label name type, spelled file (.qualified label name) ->
    sc.qualifiedTarget? file label name = some type -> type.Within True known

namespace Shares

variable {sc other : Scope} {spelled : String -> Spelling -> Prop}

theorem refl (sc : Scope) (spelled : String -> Spelling -> Prop) : Shares sc sc spelled where
  path := rfl
  types := rfl
  consts := rfl
  others := rfl
  methods := rfl
  importPaths := rfl
  checkImports := rfl
  dotType _ _ := rfl
  qualifiedType _ _ _ := rfl
  dotConst _ _ _ _ := rfl
  qualifiedConst _ _ _ _ := rfl
  qualifiedTarget _ _ _ _ := rfl

theorem isConst (h : Shares sc other spelled) (name : String) :
    other.isConst name = sc.isConst name := by
  unfold Scope.isConst
  rw [h.consts]

theorem constIndex (h : Shares sc other spelled) (name : String) :
    other.constIndex? name = sc.constIndex? name := by
  unfold constIndex?
  rw [h.consts]

theorem isLen (h : Shares sc other spelled) (e : Source.Expr) : other.isLen e = sc.isLen e := by
  unfold Scope.isLen
  rw [h.types]

theorem isLocalType (h : Shares sc other spelled) (name : String) :
    other.isLocalType name = sc.isLocalType name := by
  unfold Scope.isLocalType
  rw [h.types]

end Shares

/-- What passes in the two scopes need to take the same trail. -/
structure Setting (sc other : Scope) (known : String -> String -> Prop)
    (Fault : Complaint -> Prop) (spelled : String -> Spelling -> Prop) : Prop where
  shares : sc.Shares other spelled
  supplies : sc.Supplies known spelled
  fault : forall complaint, complaint.isOfBody = true -> Fault complaint

end Scope
end GoAtlas
