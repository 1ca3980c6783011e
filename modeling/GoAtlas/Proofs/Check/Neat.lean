import GoAtlas.Proofs.Check.Faultless
import GoAtlas.Proofs.Check.Outcome
import GoAtlas.Proofs.Check.Wording
import GoAtlas.Proofs.Source.ForeignNames

/-!
# Passes that keep dots out

A declared name in a type that a package spells was declared in it, was written behind a qualifier,
or stands in a type of another package.  So resolving a type brings up no name with a dot if links
and other packages have none.  Types of constants are left out: they never become part of a type.
-/

namespace GoAtlas

def GoType.Undotted (type : GoType) : Prop :=
  type.Within True fun _ name => Source.Plain name

structure TypeDef.Undotted (d : TypeDef) : Prop where
  name : (GoType.named d.name).Undotted
  underlying : d.underlying.Undotted

theorem TypeDef.Undotted.asType {d : TypeDef} (h : d.Undotted) : d.asType.Undotted := by
  unfold TypeDef.asType
  split
  · exact h.underlying
  · exact h.name

def Package.Undotted (p : Package) : Prop :=
  forall name d, p.type? name = some d -> d.Undotted

def Answers.Undotted (answers : Answers) : Prop :=
  forall q p, answers q = .ok p -> p.Undotted

/-- What was found so far has no dots in its names. -/
structure Progress.Undotted (p : Progress) : Prop where
  packages : forall path package, p.packages.get? path = some (some package) -> package.Undotted
  aliases : forall name type, p.aliases.get? name = some type -> type.Undotted
  underlying : forall name type, p.underlying.get? name = some type -> type.Undotted

theorem Progress.Matches.refl (p : Progress) : p.Matches p :=
  ⟨rfl, rfl, rfl, rfl, rfl⟩

/-!
# Passes that keep dots out
-/

def Neat {α : Type} (answers : Answers) (m : Resolve α) (Q : α -> Prop) : Prop :=
  forall p, p.Undotted -> Q (m.outcome answers p).1 ∧ (m.outcome answers p).2.Undotted

def Tracking.undotted (answers : Answers) : Tracking :=
  ⟨answers, answers, fun p q => p.Matches q ∧ p.Undotted, fun _ => False, fun _ => False⟩

namespace Neat

variable {α β : Type} {answers : Answers}

theorem pure {a : α} {Q : α -> Prop} (h : Q a) : Neat answers (Pure.pure a) Q := by
  intro p hp
  exact ⟨h, hp⟩

theorem bind {m : Resolve α} {f : α -> Resolve β} {P : α -> Prop} {Q : β -> Prop}
    (hm : Neat answers m P) (hf : forall a, P a -> Neat answers (f a) Q) :
    Neat answers (m >>= f) Q := by
  intro p hp
  obtain ⟨ha, hmid⟩ := hm p hp
  rw [Resolve.outcome_bind]
  exact hf _ ha _ hmid

theorem mapM {items : List α} {f : α -> Resolve β} {Q : β -> Prop}
    (hf : forall a, a ∈ items -> Neat answers (f a) Q) :
    Neat answers (items.mapM f) fun bs => forall b, b ∈ bs -> Q b := by
  induction items with
  | nil => exact pure (List.forall_mem_nil _)
  | cons a rest ih =>
      rw [List.mapM_cons]
      refine (hf a List.mem_cons_self).bind fun b hb => ?_
      refine (ih fun x hx => hf x (List.mem_cons_of_mem _ hx)).bind fun bs hbs => ?_
      exact pure (List.forall_mem_cons.mpr ⟨hb, hbs⟩)

theorem of_tracks {m n : Resolve α} (h : Tracks (.undotted answers) m n) :
    Neat answers m fun _ => True := by
  intro p hp
  rcases h.both p p ⟨Progress.Matches.refl p, hp⟩ with hlost | hlost | ⟨_, _, hend⟩
  · exact hlost.elim
  · exact hlost.elim
  · exact ⟨trivial, hend⟩

/-- Conversely, a pass that keeps dots out is in step with those that it agrees with anyway. -/
theorem tracks {m n : Resolve α} {Q : α -> Prop} (hm : Neat answers m Q)
    (h : Tracks (.worded answers answers) m n) : Tracks (.undotted answers) m n where
  left _ hlost := hlost
  right _ hlost := hlost
  both p q hpq := by
    obtain ⟨hresult, hend⟩ := h.matches hpq.1
    exact Or.inr (Or.inr ⟨hresult, hend, (hm p hpq.2).2⟩)

end Neat

section Passes

variable {answers : Answers}

theorem undotted_invalid : GoType.invalid.Undotted :=
  GoType.within_invalid_iff.mpr trivial

theorem neat_report (file : String) (line : Nat) (isSoft : Bool) (complaint : Complaint) :
    Neat answers (Resolve.report file line isSoft complaint) fun _ => True := by
  intro p hp
  exact ⟨trivial, hp.packages, hp.aliases, hp.underlying⟩

theorem neat_invalid (file : String) (line : Nat) (complaint : Complaint) :
    Neat answers (Resolve.invalid file line complaint) GoType.Undotted :=
  (neat_report file line false complaint).bind fun _ _ => Neat.pure undotted_invalid

theorem undotted_of_answer (hanswers : answers.Undotted) {path : String} {package : Package}
    (h : (answers path).toOption = some package) : package.Undotted :=
  hanswers path package (ok_of_toOption h)

theorem undotted_insert (hanswers : answers.Undotted) {packages : Table (Option Package)}
    (h : forall path package, packages.get? path = some (some package) -> package.Undotted)
    (path q : String) (package : Package)
    (hq : (packages.insert path (answers path).toOption).get? q = some (some package)) :
    package.Undotted := by
  rw [Table.get?_insert] at hq
  split at hq
  · exact undotted_of_answer hanswers (Option.some.inj hq)
  · exact h q package hq

theorem neat_packageAt (hanswers : answers.Undotted) (path : String) :
    Neat answers (Resolve.packageAt path) fun known =>
      forall package, known = some package -> package.Undotted := by
  intro p hp
  unfold Resolve.outcome
  cases hknown : p.packages.get? path with
  | some known =>
      rw [Resolve.run_packageAt_known hknown]
      refine ⟨?_, hp⟩
      rintro package rfl
      exact hp.packages path package hknown
  | none =>
      rw [Resolve.run_packageAt_new hknown]
      have hpackages := undotted_insert hanswers hp.packages path
      exact ⟨fun _ => undotted_of_answer hanswers, hpackages, hp.aliases, hp.underlying⟩

theorem Tracking.lawful_undotted (hanswers : answers.Undotted) :
    (Tracking.undotted answers).Lawful where
  left_mono _ _ _ hlost := hlost
  right_mono _ _ _ hlost := hlost
  report file line _ isSoft complaint :=
    (neat_report file line isSoft complaint).tracks (tracks_report _ _ _ _ _)
  packageAt path := (neat_packageAt hanswers path).tracks (tracks_packageAt (fun _ => rfl) path)

end Passes

namespace Scope

/-!
# Names in scope
-/

/-- Nothing that a name of the scope leads to has a dot in its names. -/
structure Undotted (sc : Scope) : Prop where
  imports : forall file label b package, sc.import? file label = some b ->
    b.package = some package -> package.Undotted
  dots : forall file b package, b ∈ (sc.fileScope file).dots ->
    b.package = some package -> package.Undotted
  names : forall name d, sc.types.get? name = some d -> Source.Plain name
  specs : forall name d, sc.types.get? name = some d -> Source.PlainNames d.spec.type

/-- Links that keep dots out.  They are in step with themselves, whatever the complaints. -/
structure NeatLinks (answers : Answers) (sc : Scope) (links : Links) : Prop where
  aliased : forall name, Neat answers (links.aliased name) GoType.Undotted
  underlying : forall name, Neat answers (links.underlying name) GoType.Undotted
  const : forall i, Neat answers (links.const i) fun _ => True
  steps : StepLinks (.worded answers answers) sc links links

variable {answers : Answers} {sc : Scope} {links : Links}

theorem NeatLinks.tracked (h : NeatLinks answers sc links) :
    TrackedLinks (.undotted answers) sc sc links links where
  aliased name := (h.aliased name).tracks (h.steps.aliased name)
  underlying name := (h.underlying name).tracks (h.steps.underlying name)
  const name i j hi hj := (h.const i).tracks (h.steps.tracked.const name i j hi hj)

theorem Undotted.dotType (hsc : sc.Undotted) {file name : String} {type : GoType}
    (h : sc.dotType? file name = some type) : type.Undotted := by
  obtain ⟨_, b, package, d, hb, hpackage, hd, rfl⟩ := exists_of_dotType h
  exact (hsc.dots file b package hb hpackage name d hd).asType

theorem neat_namedType (hsc : sc.Undotted) (hlinks : NeatLinks answers sc links) (file : String)
    (tparams : List String) (x : Source.Extent) :
    Neat answers (sc.namedType links file tparams x) GoType.Undotted := by
  unfold namedType
  dsimp only
  split
  · exact Neat.pure (GoType.within_builtin x.text)
  · cases hd : sc.types.get? x.text with
    | some d =>
        dsimp only
        split
        · exact hlinks.aliased x.text
        · exact Neat.pure (GoType.within_declared_iff.mpr (hsc.names x.text d hd))
    | none =>
        dsimp only
        split
        · exact neat_invalid _ _ _
        · cases hbuiltin : predeclared? x.text with
          | some type => exact Neat.pure (within_predeclared hbuiltin)
          | none =>
              cases hdot : sc.dotType? file x.text with
              | some type => exact Neat.pure (hsc.dotType hdot)
              | none => exact neat_invalid _ _ _

theorem neat_qualifiedType (hsc : sc.Undotted) (file : String) (label : Source.Extent)
    {name : Source.Extent} (hname : Source.Plain name.text) :
    Neat answers (sc.qualifiedType file label name) GoType.Undotted := by
  unfold qualifiedType
  split
  · exact neat_invalid _ _ _
  · next b hb =>
      split
      · split
        · exact Neat.pure (GoType.within_basic (by decide))
        · exact neat_invalid _ _ _
      · split
        · exact Neat.pure undotted_invalid
        · next package hpackage =>
            split
            · exact neat_invalid _ _ _
            · split
              · exact Neat.pure (GoType.within_declared_iff.mpr hname)
              · split
                · next d hd =>
                    exact Neat.pure (hsc.imports file _ b package hb hpackage _ d hd).asType
                · exact neat_invalid _ _ _

theorem neat_underlyingWithin (hanswers : answers.Undotted) (hlinks : NeatLinks answers sc links)
    (fuel : Nat) {type : GoType} (htype : type.Undotted) :
    Neat answers (sc.underlyingWithin links fuel type) GoType.Undotted := by
  induction fuel generalizing type with
  | zero => exact Neat.pure undotted_invalid
  | succ fuel ih =>
      cases type with
      | named n =>
          cases n with
          | declared path name =>
              unfold underlyingWithin
              split
              · exact hlinks.underlying name
              · refine (neat_packageAt hanswers path).bind fun known hknown => ?_
                cases known with
                | none => exact Neat.pure undotted_invalid
                | some package =>
                    dsimp only
                    cases hd : package.type? name with
                    | none => exact Neat.pure undotted_invalid
                    | some d =>
                        have hundotted := (hknown package rfl name d hd).underlying
                        dsimp only
                        split
                        · exact ih hundotted
                        · exact Neat.pure hundotted
          | builtin name =>
              unfold underlyingWithin
              split
              · exact Neat.pure GoType.within_errorInterface
              · exact Neat.pure GoType.within_emptyInterface
      | _ => exact Neat.pure htype

/-!
# Type expressions
-/

theorem neat_eval (hanswers : answers.Undotted) (hlinks : NeatLinks answers sc links)
    (file : String) (iota : Option Nat) (e : Source.Expr) :
    Neat answers (sc.eval links file iota e).run fun _ => True :=
  Neat.of_tracks (tracks_eval (Tracking.lawful_undotted hanswers) (Alike.refl sc) hlinks.tracked
    keepsText_id file iota e)

theorem neat_addField {file : String} {line : Nat} {fields : List (Field GoType)}
    {f : Field GoType} (hfields : forall g, g ∈ fields -> g.type.Undotted)
    (hf : f.type.Undotted) :
    Neat answers (addField file line fields f) fun all => forall g, g ∈ all -> g.type.Undotted := by
  unfold addField
  split
  · exact (neat_report _ _ _ _).bind fun _ _ => Neat.pure hfields
  · exact Neat.pure (List.forall_mem_append.mpr ⟨hfields, List.forall_mem_singleton.mpr hf⟩)

theorem neat_addFields {file : String} {type : GoType} {tag : Option String} {path : String}
    {fields : List (Field GoType)} (names : List Source.Extent)
    (hfields : forall g, g ∈ fields -> g.type.Undotted) (htype : type.Undotted) :
    Neat answers (addFields file type tag path fields names)
      fun all => forall g, g ∈ all -> g.type.Undotted := by
  induction names generalizing fields with
  | nil => exact Neat.pure hfields
  | cons x names ih => exact (neat_addField hfields htype).bind fun _ hall => ih hall

theorem neat_addMethod {file : String} {line : Nat} {methods : List (InterfaceMethod GoType)}
    {m : InterfaceMethod GoType}
    (hmethods : forall n, n ∈ methods -> (GoType.func n.signature).Undotted)
    (hm : (GoType.func m.signature).Undotted) :
    Neat answers (addMethod file line methods m)
      fun all => forall n, n ∈ all -> (GoType.func n.signature).Undotted := by
  unfold addMethod
  split
  · exact (neat_report _ _ _ _).bind fun _ _ => Neat.pure hmethods
  · exact Neat.pure (List.forall_mem_append.mpr ⟨hmethods, List.forall_mem_singleton.mpr hm⟩)

/-- What resolving a type expression goes by. -/
structure NeatSetting (answers : Answers) (sc : Scope) (links : Links) : Prop where
  told : answers.Undotted
  scope : sc.Undotted
  links : NeatLinks answers sc links

mutual

theorem neat_resolveType (h : NeatSetting answers sc links) (file : String)
    (tparams : List String) (e : Source.TypeExpr) (he : Source.PlainNames e) :
    Neat answers (sc.resolveType links file tparams e) GoType.Undotted := by
  match e with
  | .name x =>
      rw [resolveType]
      exact neat_namedType h.scope h.links file tparams x
  | .qualified _ label name =>
      cases he with
      | qualified hname =>
          rw [resolveType]
          exact neat_qualifiedType h.scope file label hname
  | .generic _ base _ =>
      cases he with
      | generic hbase =>
          rw [resolveType]
          exact neat_resolveType h file tparams base hbase
  | .paren _ inner =>
      cases he with
      | paren hinner =>
          rw [resolveType]
          exact neat_resolveType h file tparams inner hinner
  | .negated _ inner =>
      cases he with
      | negated hinner =>
          rw [resolveType]
          exact neat_resolveType h file tparams inner hinner
  | .pointer _ elem =>
      cases he with
      | pointer helem =>
          rw [resolveType]
          exact (neat_resolveType h file tparams elem helem).bind fun _ htype =>
            Neat.pure (GoType.within_pointer_iff.mpr htype)
  | .slice _ elem =>
      cases he with
      | slice helem =>
          rw [resolveType]
          exact (neat_resolveType h file tparams elem helem).bind fun _ htype =>
            Neat.pure (GoType.within_slice_iff.mpr htype)
  | .array _ len elem =>
      cases he with
      | array helem =>
          rw [resolveType]
          refine (neat_resolveType h file tparams elem helem).bind fun type htype => ?_
          refine (neat_eval h.told h.links file none len).bind fun value _ => ?_
          cases lengthOf? value with
          | some n => exact Neat.pure (GoType.within_array_iff.mpr htype)
          | none => exact neat_invalid _ _ _
  | .map _ key value =>
      cases he with
      | map hkey hvalue =>
          rw [resolveType]
          exact (neat_resolveType h file tparams key hkey).bind fun _ hk =>
            (neat_resolveType h file tparams value hvalue).bind fun _ hv =>
              Neat.pure (GoType.within_map_iff.mpr ⟨hk, hv⟩)
  | .chan _ dir elem =>
      cases he with
      | chan helem =>
          rw [resolveType]
          exact (neat_resolveType h file tparams elem helem).bind fun _ htype =>
            Neat.pure (GoType.within_chan_iff.mpr htype)
  | .func _ params results =>
      cases he with
      | func hparams hresults =>
          rw [resolveType]
          exact (neat_paramTypes h file tparams params hparams).bind fun _ hp =>
            (neat_paramTypes h file tparams results hresults).bind fun _ hr =>
              Neat.pure (GoType.within_func_iff.mpr (GoType.within_signature hp hr))
  | .struct _ fields =>
      cases he with
      | struct hfields =>
          rw [resolveType]
          have hneat := neat_structFields h file tparams [] fields (List.forall_mem_nil _) hfields
          exact hneat.bind fun _ hall => Neat.pure (GoType.within_struct_iff.mpr hall)
  | .interface _ elems =>
      rw [resolveType]
      exact neat_interfaceElems h file tparams [] [] elems (List.forall_mem_nil _)
        (List.forall_mem_nil _) he.elems

theorem neat_paramTypes (h : NeatSetting answers sc links) (file : String)
    (tparams : List String) (params : List Source.Param)
    (hparams : forall p, p ∈ params -> Source.PlainNames p.type) :
    Neat answers (sc.paramTypes links file tparams params)
      fun found => forall type, type ∈ found.1 -> type.Undotted := by
  match params with
  | [] =>
      rw [paramTypes]
      exact Neat.pure (List.forall_mem_nil _)
  | .plain names type :: rest =>
      obtain ⟨hfirst, hrest⟩ := List.forall_mem_cons.mp hparams
      rw [paramTypes]
      refine (neat_resolveType h file tparams type hfirst).bind fun found hfound => ?_
      refine (neat_paramTypes h file tparams rest hrest).bind fun more hmore => ?_
      refine Neat.pure (List.forall_mem_append.mpr ⟨?_, hmore⟩)
      intro t ht
      rw [List.eq_of_mem_replicate ht]
      exact hfound
  | .variadic _ type :: rest =>
      obtain ⟨hfirst, hrest⟩ := List.forall_mem_cons.mp hparams
      rw [paramTypes]
      refine (neat_resolveType h file tparams type hfirst).bind fun found hfound => ?_
      refine (neat_paramTypes h file tparams rest hrest).bind fun more hmore => ?_
      exact Neat.pure (List.forall_mem_cons.mpr ⟨GoType.within_slice_iff.mpr hfound, hmore⟩)

theorem neat_structFields (h : NeatSetting answers sc links) (file : String)
    (tparams : List String) (fields : List (Field GoType)) (decls : List Source.FieldDecl)
    (hfields : forall g, g ∈ fields -> g.type.Undotted)
    (hdecls : forall f, f ∈ decls -> Source.PlainNames f.type) :
    Neat answers (sc.structFields links file tparams fields decls)
      fun all => forall g, g ∈ all -> g.type.Undotted := by
  match decls with
  | [] =>
      rw [structFields]
      exact Neat.pure hfields
  | .named _ names type tag :: rest =>
      obtain ⟨hfirst, hrest⟩ := List.forall_mem_cons.mp hdecls
      rw [structFields]
      exact (neat_resolveType h file tparams type hfirst).bind fun _ hfound =>
        (neat_addFields names hfields hfound).bind fun all hall =>
          neat_structFields h file tparams all rest hall hrest
  | .embedded _ star type tag :: rest =>
      obtain ⟨hfirst, hrest⟩ := List.forall_mem_cons.mp hdecls
      rw [structFields]
      refine (neat_resolveType h file tparams type hfirst).bind fun found hfound => ?_
      refine Neat.bind (neat_addField hfields ?_) fun all hall =>
        neat_structFields h file tparams all rest hall hrest
      dsimp only
      split
      · exact GoType.within_pointer_iff.mpr hfound
      · exact hfound

theorem neat_interfaceElems (h : NeatSetting answers sc links) (file : String)
    (tparams : List String) (methods : List (InterfaceMethod GoType)) (embedded : List GoType)
    (elems : List Source.InterfaceElem)
    (hmethods : forall n, n ∈ methods -> (GoType.func n.signature).Undotted)
    (hembedded : forall type, type ∈ embedded -> type.Undotted)
    (helems : forall e, e ∈ elems -> Source.PlainElem e) :
    Neat answers (sc.interfaceElems links file tparams methods embedded elems)
      GoType.Undotted := by
  match elems with
  | [] =>
      rw [interfaceElems]
      exact Neat.pure (GoType.within_interface hmethods hembedded)
  | .method x name params results :: rest =>
      obtain ⟨hfirst, hrest⟩ := List.forall_mem_cons.mp helems
      cases hfirst with
      | method hparams hresults =>
          rw [interfaceElems]
          refine (neat_paramTypes h file tparams params hparams).bind fun _ hp => ?_
          refine (neat_paramTypes h file tparams results hresults).bind fun _ hr => ?_
          refine (neat_addMethod hmethods (GoType.within_signature hp hr)).bind fun all hall => ?_
          exact neat_interfaceElems h file tparams all embedded rest hall hembedded hrest
  | .union terms :: rest =>
      obtain ⟨hfirst, hrest⟩ := List.forall_mem_cons.mp helems
      cases hfirst with
      | union hterms =>
          rw [interfaceElems]
          refine (neat_resolveTypes h file tparams terms hterms).bind fun types htypes => ?_
          exact neat_interfaceElems h file tparams methods (embedded ++ types) rest hmethods
            (List.forall_mem_append.mpr ⟨hembedded, htypes⟩) hrest

theorem neat_resolveTypes (h : NeatSetting answers sc links) (file : String)
    (tparams : List String) (types : List Source.TypeExpr)
    (htypes : forall t, t ∈ types -> Source.PlainNames t) :
    Neat answers (sc.resolveTypes links file tparams types)
      fun found => forall type, type ∈ found -> type.Undotted := by
  match types with
  | [] =>
      rw [resolveTypes]
      exact Neat.pure (List.forall_mem_nil _)
  | type :: rest =>
      obtain ⟨hfirst, hrest⟩ := List.forall_mem_cons.mp htypes
      rw [resolveTypes]
      exact (neat_resolveType h file tparams type hfirst).bind fun _ hfound =>
        (neat_resolveTypes h file tparams rest hrest).bind fun _ hmore =>
          Neat.pure (List.forall_mem_cons.mpr ⟨hfound, hmore⟩)

end

end Scope
end GoAtlas
