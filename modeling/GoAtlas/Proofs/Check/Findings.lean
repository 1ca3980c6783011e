import GoAtlas.Proofs.Check.FoundValues
import GoAtlas.Proofs.Lists

/-!
# Findings

What the second pass finds when the values of all declarations are given.  As long as there is no
complaint, neither the order of methods, types and constants matters nor the places where they
stand.
-/

namespace GoAtlas

/-!
# What definitions say
-/

/-- What a definition says, wherever it stands; its methods are seen by their names. -/
def TypeDef.meaning (d : TypeDef) :
    TypeName × GoType × Bool × (String -> Option (Bool × Signature GoType)) :=
  (d.name, d.underlying, d.isAlias,
    fun name => (d.method? name).map fun m => (m.onPointer, m.signature))

namespace CheckedPackage

def typeNamed (p : CheckedPackage) (name : String) :
    Option (TypeName × GoType × Bool × (String -> Option (Bool × Signature GoType))) :=
  (p.types.find? fun d => d.name.name == name).map TypeDef.meaning

def constNamed (p : CheckedPackage) (name : String) : Option (GoType × Constant) :=
  (p.consts.find? fun c => c.name == name).map fun c => (c.type, c.value)

end CheckedPackage

/-!
# Passes without memory
-/

namespace Resolve

variable {answers : Answers} {α β : Type}

def Stateless (answers : Answers) (m : Resolve α) : Prop :=
  Tracks (.clean answers (fun _ => True) fun _ => True) m m

theorem clean?_bind {m : Resolve α} {g : α -> Resolve β} (hm : Stateless answers m)
    (hg : forall a, Stateless answers (g a)) :
    (m >>= g).clean? answers = (m.clean? answers).bind fun a => (g a).clean? answers := by
  have hblank : Progress.Clean answers (fun _ => True) (fun _ => True) .blank .blank :=
    ⟨Progress.told_blank answers, Progress.told_blank answers, Progress.not_complained_blank,
      trivial, trivial⟩
  refine Option.ext fun b => ?_
  rw [clean?_eq_some_iff, outcome_bind, Option.bind_eq_some_iff]
  constructor
  · rintro ⟨hresult, hclean⟩
    have hfirst : ¬ Complained (m.outcome answers .blank).2.errors :=
      fun hlost => hclean ((hg _).left _ hlost)
    have hmiddle := (hm.clean hblank hfirst).2
    have hstart : Progress.Clean answers (fun _ => True) (fun _ => True)
        (m.outcome answers .blank).2 .blank :=
      ⟨hmiddle.told, hblank.told, hblank.clean, trivial, trivial⟩
    rcases (hg _).clean hstart hclean with ⟨hsame, hend⟩
    exact ⟨_, clean?_eq_some_iff.mpr ⟨rfl, hfirst⟩,
      clean?_eq_some_iff.mpr ⟨hsame.symm.trans hresult, hend.clean⟩⟩
  · rintro ⟨a, ha, hb⟩
    rcases clean?_eq_some_iff.mp ha with ⟨rfl, hfirst⟩
    rcases clean?_eq_some_iff.mp hb with ⟨hresult, hclean⟩
    have hmiddle := (hm.clean hblank hfirst).2
    have hstart : Progress.Clean answers (fun _ => True) (fun _ => True) .blank
        (m.outcome answers .blank).2 :=
      ⟨hblank.told, hmiddle.told, hmiddle.clean, trivial, trivial⟩
    rcases (hg _).clean hstart hclean with ⟨hsame, hend⟩
    exact ⟨hsame.symm.trans hresult, hend.clean⟩

theorem clean?_mapM (items : List α) {f : α -> Resolve β} {g : α -> Option β}
    (h : forall a, a ∈ items -> Stateless answers (f a))
    (hg : forall a, a ∈ items -> (f a).clean? answers = g a) :
    (items.mapM f).clean? answers = items.mapM g := by
  induction items with
  | nil => rfl
  | cons a rest ih =>
      rw [List.forall_mem_cons] at h hg
      rw [List.mapM_cons, List.mapM_cons, clean?_bind h.1
        fun b => (Tracks.mapM rest h.2).bind fun _ => Tracks.pure _, hg.1]
      refine congrArg _ (funext fun b => ?_)
      rw [clean?_bind (Tracks.mapM rest h.2) fun _ => Tracks.pure _, ih h.2 hg.2]
      rfl

theorem clean?_foldlM (items : List α) {f : β -> α -> Resolve β} {g : β -> α -> Option β}
    (h : forall b a, Stateless answers (f b a))
    (hg : forall b a, (f b a).clean? answers = g b a) (b : β) :
    (items.foldlM f b).clean? answers = items.foldlM g b := by
  induction items generalizing b with
  | nil => rfl
  | cons a rest ih =>
      rw [List.foldlM_cons, List.foldlM_cons, clean?_bind (h b a) (Tracks.foldlM rest h), hg]
      exact congrArg _ (funext ih)

theorem clean?_given (value : Option α) (missing : α) :
    (given value missing).clean? answers = value := by
  cases value with
  | some a => rfl
  | none => rfl

theorem stateless_given (value : Option α) (missing : α) :
    Stateless answers (given value missing) :=
  tracks_given missing fun _ h => h

theorem clean?_given_map (value : Option α) (missing : α) (g : α -> β) :
    (given value missing >>= fun a => pure (g a)).clean? answers = value.map g := by
  rw [clean?_bind (stateless_given _ _) fun _ => Tracks.pure _, clean?_given]
  cases value with
  | some a => rfl
  | none => rfl

end Resolve

namespace Scope

open Resolve

/-!
# The second pass for given values
-/

section Given

variable (sc : Scope) (answers : Answers) (v : Values)

def entry? (m : MethodSource) : Option (Option (String × Method)) :=
  (Source.receiverType? m.decl.receiver).bind fun type =>
    let r := Source.Receiver.ofType type
    if !sc.isLocalType r.base then none
    else if m.decl.name.text == "_" then some none
    else
      ((sc.signatureWith (sc.assume v) m.file r.tparams m.decl).clean? answers).map fun signature =>
        some (r.base, ⟨m.decl.name.text, r.isPointer, signature,
          some (spanOf m.file m.decl.extent)⟩)

def place (methods : Table (List Method)) (e : String × Method) : Option (Table (List Method)) :=
  let known := (methods.get? e.1).getD []
  if known.any fun n => n.name == e.2.name then none
  else some (methods.insert e.1 (known ++ [e.2]))

def typeFinding (methods : Table (List Method)) (name : String) (d : TypeDecl) : Option TypeDef :=
  let span := some (spanOf d.file d.spec.extent)
  if d.spec.isAlias then
    (v.aliased name).map fun type => ⟨.declared sc.path name, type, [], true, span⟩
  else
    (v.underlying name).map fun type =>
      ⟨.declared sc.path name, type, (methods.get? name).getD [], false, span⟩

def constFinding (d : ConstDecl) : Option (Option ConstDef) :=
  (v.const d.name).map fun value => value.map fun value =>
    ⟨d.name, value.2, value.1, some (spanOf d.file d.spec)⟩

def findings (name : String) : Option CheckedPackage := do
  let added ← sc.methods.mapM (sc.entry? answers v)
  let methods ← (added.filterMap id).foldlM place Table.empty
  let types ← sc.types.entries.mapM fun entry => sc.typeFinding v methods entry.1 entry.2
  let consts ← sc.consts.mapM (constFinding v)
  return ⟨name, types, consts.filterMap id, sc.importList⟩

end Given

section Assumed

variable {sc : Scope} {answers : Answers} {v : Values}

theorem steps_assume (sc : Scope) (v : Values) {L R : Progress -> Prop} :
    StepLinks (.clean answers L R) sc (sc.assume v) (sc.assume v) where
  aliased name := tracks_given _ fun _ h => h
  underlying name := tracks_given _ fun _ h => h
  const i d hd := by
    unfold assume
    dsimp only
    rw [hd]
    exact tracks_given _ fun _ h => h

theorem lawful_stateless (answers : Answers) :
    (Tracking.clean answers (fun _ => True) fun _ => True).Lawful :=
  Tracking.lawful_clean answers Progress.ofMemory_true Progress.ofMemory_true

theorem stateless_signatureWith (file : String) (tparams : List String) (d : Source.MethodDecl) :
    Stateless answers (sc.signatureWith (sc.assume v) file tparams d) := by
  have hparams : forall params, Stateless answers
      (sc.paramTypes (sc.assume v) file tparams params) := by
    intro params
    have htracks := tracks_paramTypes (lawful_stateless answers) (Alike.refl sc)
      (steps_assume sc v).tracked keepsText_id file tparams params
    rw [Source.relocateParams_id] at htracks
    exact htracks
  exact (hparams _).bind fun _ => (hparams _).bind fun _ => Tracks.pure _

theorem clean?_addToType (file : String) (line : Nat) (base : String) (m : Method)
    (methods : Table (List Method)) :
    (addToType file line base m methods).clean? answers = place methods (base, m) := by
  unfold addToType place
  dsimp only
  split
  · rfl
  · rfl

theorem clean?_checkMethodWith (methods : Table (List Method)) (m : MethodSource) :
    (sc.checkMethodWith (sc.assume v) methods m).clean? answers =
      (sc.entry? answers v m).bind fun e => e.elim (some methods) (place methods) := by
  unfold checkMethodWith entry?
  dsimp only
  cases Source.receiverType? m.decl.receiver with
  | none => rfl
  | some type =>
      dsimp only [Option.bind_some]
      split
      · rfl
      · split
        · rfl
        · rw [clean?_bind (stateless_signatureWith _ _ _) ?_]
          · rw [Option.bind_map]
            exact congrArg _ (funext fun signature => clean?_addToType _ _ _ _ _)
          · intro signature
            unfold addToType
            dsimp only
            split
            · exact ((lawful_stateless answers).complain _ _ _ _).bind fun _ => Tracks.pure _
            · exact Tracks.pure _

theorem clean?_typeDefWith (methods : Table (List Method)) (name : String) (d : TypeDecl) :
    (sc.typeDefWith (sc.assume v) methods name d).clean? answers =
      sc.typeFinding v methods name d := by
  unfold typeDefWith typeFinding
  dsimp only
  split
  · exact clean?_given_map _ _ _
  · exact clean?_given_map _ _ _

theorem clean?_constDefWith {i : Nat} {d : ConstDecl} (hd : sc.consts[i]? = some d) :
    (constDefWith (sc.assume v) i d).clean? answers = constFinding v d := by
  have hlink : (sc.assume v).const i = given (v.const d.name) none := by
    unfold assume
    dsimp only
    rw [hd]
  unfold constDefWith constFinding
  rw [hlink, clean?_bind (stateless_given _ _) ?_, clean?_given]
  · cases v.const d.name with
    | none => rfl
    | some value =>
        cases value with
        | none => rfl
        | some value => rfl
  · intro value
    split
    · exact Tracks.pure _
    · exact Tracks.pure _

theorem not_complained_forM {α : Type} {f : α -> Resolve Unit}
    (h : forall a p, ¬ Complained p.errors -> ¬ Complained ((f a).outcome answers p).2.errors)
    (items : List α) (p : Progress) (hp : ¬ Complained p.errors) :
    ¬ Complained ((items.forM f).outcome answers p).2.errors := by
  induction items generalizing p with
  | nil => exact hp
  | cons a rest ih =>
      show ¬ Complained ((f a >>= fun _ => rest.forM f).outcome answers p).2.errors
      rw [outcome_bind]
      exact ih _ (h a p hp)

theorem clean?_checkImports (sc : Scope) : sc.checkImports.clean? answers = some () := by
  refine clean?_eq_some_iff.mpr ⟨rfl, ?_⟩
  refine not_complained_forM (fun f p hp => ?_) sc.files.entries _ Progress.not_complained_blank
  refine not_complained_forM (fun i p hp => ?_) f.2.named p hp
  unfold checkImport
  dsimp only
  split
  · exact hp
  · rintro ⟨e, he, hhard⟩
    rcases List.mem_append.mp he with hold | hnew
    · exact hp ⟨e, hold, hhard⟩
    · cases List.mem_singleton.mp hnew
      cases hhard

theorem clean?_definitionsWith (sc : Scope) (answers : Answers) (v : Values) (name : String) :
    (sc.definitionsWith (sc.assume v) name).clean? answers = sc.findings answers v name := by
  have hT := lawful_stateless answers
  have hlinks : StepLinks (.clean answers (fun _ => True) fun _ => True) sc (sc.assume v)
      (sc.assume v) := steps_assume sc v
  have himports := tracks_checkImports hT sc
  have hconst : forall entry : ConstDecl × Nat, entry ∈ sc.consts.zipIdx ->
      sc.consts[entry.2]? = some entry.1 := fun _ h => List.mem_zipIdx_iff_getElem?.mp h
  have hconsts := Tracks.mapM sc.consts.zipIdx fun (entry : ConstDecl × Nat) hentry =>
    tracks_constDefWith hlinks (hconst entry hentry)
  have htypes := fun methods => Tracks.mapM sc.types.entries fun (entry : String × TypeDecl) _ =>
    tracks_typeDefWith hlinks methods entry.1 entry.2
  have hmethods := tracks_checkMethodWith hT hlinks.tracked
  unfold definitionsWith findings
  rw [clean?_bind (Tracks.foldlM sc.methods hmethods _) fun methods => (htypes methods).bind
      fun _ => hconsts.bind fun _ => himports.bind fun _ => Tracks.pure _,
    clean?_foldlM sc.methods hmethods clean?_checkMethodWith, foldlM_bind, Option.bind_assoc]
  refine congrArg _ (funext fun added => congrArg _ (funext fun methods => ?_))
  rw [clean?_bind (htypes methods) fun _ => hconsts.bind fun _ => himports.bind fun _ =>
      Tracks.pure _,
    clean?_mapM sc.types.entries (fun entry _ => tracks_typeDefWith hlinks methods entry.1 entry.2)
      fun entry _ => clean?_typeDefWith methods entry.1 entry.2]
  refine congrArg _ (funext fun types => ?_)
  rw [clean?_bind hconsts fun _ => himports.bind fun _ => Tracks.pure _,
    clean?_mapM sc.consts.zipIdx
      (fun entry hentry => tracks_constDefWith hlinks (hconst entry hentry))
      fun entry hentry => clean?_constDefWith (hconst entry hentry),
    mapM_zipIdx (constFinding v)]
  refine congrArg _ (funext fun consts => ?_)
  rw [clean?_bind himports fun _ => Tracks.pure _, clean?_checkImports]
  rfl

end Assumed

/-!
# Methods of types
-/

def slot (e : String × Method) : String × String := (e.1, e.2.name)

def Placed (added : List (String × Method)) (methods : Table (List Method)) : Prop :=
  forall base, (methods.get? base).getD [] = (added.filter fun e => e.1 == base).map Prod.snd

section Placing

variable {added : List (String × Method)} {methods : Table (List Method)}

theorem placed_nil : Placed [] Table.empty := fun _ => rfl

theorem mem_iff_placed (h : Placed added methods) {base : String} {m : Method} :
    m ∈ (methods.get? base).getD [] ↔ (base, m) ∈ added := by
  rw [h base, List.mem_map]
  constructor
  · rintro ⟨e, he, rfl⟩
    rcases List.mem_filter.mp he with ⟨hmem, hbase⟩
    rw [← beq_iff_eq.mp hbase]
    exact hmem
  · intro hmem
    exact ⟨(base, m), List.mem_filter.mpr ⟨hmem, beq_iff_eq.mpr rfl⟩, rfl⟩

theorem any_iff_placed (h : Placed added methods) (e : String × Method) :
    (((methods.get? e.1).getD []).any fun n => n.name == e.2.name) = true ↔
      slot e ∈ added.map slot := by
  rw [List.any_eq_true, List.mem_map]
  constructor
  · rintro ⟨n, hn, hname⟩
    exact ⟨(e.1, n), (mem_iff_placed h).mp hn, Prod.ext rfl (beq_iff_eq.mp hname)⟩
  · rintro ⟨d, hd, hslot⟩
    have hboth : d.1 = e.1 ∧ d.2.name = e.2.name := Prod.mk.inj hslot
    refine ⟨d.2, (mem_iff_placed h).mpr ?_, beq_iff_eq.mpr hboth.2⟩
    rw [← hboth.1]
    exact hd

theorem Placed.insert (h : Placed added methods) (e : String × Method) :
    Placed (added ++ [e]) (methods.insert e.1 ((methods.get? e.1).getD [] ++ [e.2])) := by
  intro base
  rw [Table.get?_insert, List.filter_append, List.map_append, List.filter_singleton]
  by_cases hbase : base = e.1
  · subst hbase
    rw [if_pos rfl, Option.getD_some, h, beq_self_eq_true]
    rfl
  · rw [if_neg hbase, beq_eq_false_iff_ne.mpr (Ne.symm hbase), h base]
    exact (List.append_nil _).symm

theorem place_spec (h : Placed added methods) (e : String × Method) :
    (slot e ∈ added.map slot ∧ place methods e = none) ∨
      (slot e ∉ added.map slot ∧ exists methods', place methods e = some methods' ∧
        Placed (added ++ [e]) methods') := by
  unfold place
  dsimp only
  rw [← any_iff_placed h e]
  split
  · next hknown => exact Or.inl ⟨hknown, rfl⟩
  · next hnew => exact Or.inr ⟨hnew, _, rfl, h.insert e⟩

/-- Methods can be added exactly if no type gets two of one name. -/
theorem foldlM_place (h : Placed added methods) (hadded : (added.map slot).Nodup)
    (more : List (String × Method)) :
    (¬ ((added ++ more).map slot).Nodup ∧ more.foldlM place methods = none) ∨
      (((added ++ more).map slot).Nodup ∧ exists methods',
        more.foldlM place methods = some methods' ∧ Placed (added ++ more) methods') := by
  induction more generalizing added methods with
  | nil =>
      rw [List.append_nil]
      exact Or.inr ⟨hadded, methods, rfl, h⟩
  | cons e rest ih =>
      rw [List.foldlM_cons, ← List.singleton_append, ← List.append_assoc]
      rcases place_spec h e with ⟨hknown, hplace⟩ | ⟨hnew, methods', hplace, hplaced⟩
      · refine Or.inl ⟨?_, by rw [hplace]; rfl⟩
        intro hnodup
        rw [List.append_assoc, List.map_append, List.nodup_append] at hnodup
        exact hnodup.2.2 _ hknown _ List.mem_cons_self rfl
      · have hnodup : ((added ++ [e]).map slot).Nodup := by
          rw [List.map_append, List.nodup_append]
          refine ⟨hadded, List.nodup_singleton _, ?_⟩
          intro a ha b hb heq
          rw [List.mem_singleton.mp hb] at heq
          exact hnew (heq ▸ ha)
        rw [hplace]
        exact ih hplaced hnodup

theorem nodup_names_of_placed (h : Placed added methods) (hadded : (added.map slot).Nodup)
    (base : String) : (((methods.get? base).getD []).map fun m => m.name).Nodup := by
  have hsub : ((added.filter fun e => e.1 == base).map slot).Nodup :=
    hadded.sublist (List.filter_sublist.map slot)
  have hslots : (added.filter fun e => e.1 == base).map slot =
      (((methods.get? base).getD []).map fun m => m.name).map fun name => (base, name) := by
    rw [h base, List.map_map, List.map_map]
    refine List.map_congr_left fun e he => ?_
    exact Prod.ext (beq_iff_eq.mp (List.mem_filter.mp he).2) rfl
  rw [hslots] at hsub
  exact hsub.of_map _

end Placing

/-!
# Scopes with the same declarations
-/

section Transfer

variable {sc other : Scope} {answers : Answers} {v : Values} {f : Source.Extent -> Source.Extent}

theorem Alike.isLocalType (h : Alike sc other) (name : String) :
    other.isLocalType name = sc.isLocalType name := by
  have htypes := h.types name
  unfold Scope.isLocalType
  cases hd : sc.types.get? name with
  | none =>
      rw [hd] at htypes
      rw [Option.map_eq_none_iff.mp htypes]
  | some d =>
      rw [hd] at htypes
      rcases Option.map_eq_some_iff.mp htypes with ⟨d', hd', halias⟩
      rw [hd']
      exact congrArg not halias

def SameMethod (e e' : String × Method) : Prop :=
  slot e' = slot e ∧ e'.2.onPointer = e.2.onPointer ∧ e'.2.signature = e.2.signature

theorem signatureWith_relocate (hscope : Alike sc other) (hf : Source.KeepsText f) {file : String}
    {tparams : List String} {d : Source.MethodDecl} {signature : Signature GoType}
    (h : (sc.signatureWith (sc.assume v) file tparams d).clean? answers = some signature) :
    (other.signatureWith (other.assume v) file tparams (d.relocate f)).clean? answers =
      some signature := by
  have hparams := fun params => tracks_paramTypes (lawful_stateless answers) hscope
    (tracks_assume sc other (Values.Within.refl v)) hf file tparams params
  have hboth : Tracks (.clean answers (fun _ => True) fun _ => True)
      (sc.signatureWith (sc.assume v) file tparams d)
      (other.signatureWith (other.assume v) file tparams (d.relocate f)) :=
    (hparams d.params).bind fun _ => (hparams d.results).bind fun _ => Tracks.pure _
  exact hboth.clean?_eq h

theorem entry?_relocate (hscope : Alike sc other) (hf : Source.KeepsText f) {m : MethodSource}
    {e : Option (String × Method)} (h : sc.entry? answers v m = some e) :
    exists e', other.entry? answers v (m.relocate f) = some e' ∧ Option.Rel SameMethod e e' := by
  have hreceiver : Source.receiverType? (m.relocate f).decl.receiver =
      (Source.receiverType? m.decl.receiver).map (Source.TypeExpr.relocate f) :=
    Source.receiverType?_relocate f m.decl.receiver
  have hname : (m.relocate f).decl.name.text = m.decl.name.text := hf m.decl.name
  unfold entry? at h ⊢
  rw [hreceiver, hname]
  cases htype : Source.receiverType? m.decl.receiver with
  | none =>
      rw [htype] at h
      cases h
  | some type =>
      rw [htype] at h
      simp only [Option.map_some, Option.bind_some, Source.Receiver.ofType_relocate hf,
        hscope.isLocalType] at h ⊢
      split at h
      · cases h
      · next hlocal =>
          rw [if_neg hlocal]
          split at h
          · next hblank =>
              cases h
              rw [if_pos hblank]
              exact ⟨none, rfl, Option.Rel.none⟩
          · next hblank =>
              rw [if_neg hblank]
              rcases Option.map_eq_some_iff.mp h with ⟨signature, hsignature, rfl⟩
              refine ⟨some _, Option.map_eq_some_iff.mpr
                ⟨signature, signatureWith_relocate hscope hf hsignature, rfl⟩, ?_⟩
              exact Option.Rel.some ⟨rfl, rfl, rfl⟩

theorem exists_entries (hscope : Alike sc other)
    (hmethods : Arranged MethodSource.Moved sc.methods other.methods)
    {added : List (Option (String × Method))}
    (h : sc.methods.mapM (sc.entry? answers v) = some added) :
    exists added', other.methods.mapM (other.entry? answers v) = some added' ∧
      Arranged SameMethod (added.filterMap id) (added'.filterMap id) := by
  rcases hmethods with ⟨l, hperm, hmoved⟩
  rcases List.perm_comp_forall₂ hperm (mapM_eq_some_iff.mp h) with ⟨entries, hentries, hsame⟩
  have hstep : forall m m' e, MethodSource.Moved m m' -> sc.entry? answers v m = some e ->
      exists e', other.entry? answers v m' = some e' ∧ Option.Rel SameMethod e e' := by
    rintro m m' e ⟨f, hf, rfl⟩ he
    exact entry?_relocate hscope hf he
  rcases exists_forall₂ hstep hmoved hentries with ⟨added', hadded', hrel⟩
  refine ⟨added', mapM_eq_some_iff.mpr hadded', ?_⟩
  exact Arranged.filterMap (fun _ _ h => h) ⟨entries, hsame, hrel⟩

def SameTable (methods methods' : Table (List Method)) : Prop :=
  forall base name,
    (((methods'.get? base).getD []).find? fun m => m.name == name).map
        (fun m => (m.onPointer, m.signature)) =
      (((methods.get? base).getD []).find? fun m => m.name == name).map
        fun m => (m.onPointer, m.signature)

theorem exists_methods (hscope : Alike sc other)
    (hmethods : Arranged MethodSource.Moved sc.methods other.methods)
    {added : List (Option (String × Method))} {methods : Table (List Method)}
    (h : sc.methods.mapM (sc.entry? answers v) = some added)
    (hplace : (added.filterMap id).foldlM place Table.empty = some methods) :
    exists added' methods', other.methods.mapM (other.entry? answers v) = some added' ∧
      (added'.filterMap id).foldlM place Table.empty = some methods' ∧
      SameTable methods methods' := by
  rcases exists_entries hscope hmethods h with ⟨added', hadded', hsame⟩
  rcases foldlM_place placed_nil List.nodup_nil (added.filterMap id) with
    ⟨_, hnone⟩ | ⟨hnodup, _, hplace', hplaced⟩
  · cases hnone.symm.trans hplace
  cases hplace'.symm.trans hplace
  have hslots := hsame.map_perm fun _ _ h => h.1
  have hnodup' : ((added'.filterMap id).map slot).Nodup := hslots.nodup_iff.mp hnodup
  rcases foldlM_place placed_nil List.nodup_nil (added'.filterMap id) with
    ⟨htwice, _⟩ | ⟨_, methods', hplace', hplaced'⟩
  · exact absurd hnodup' htwice
  refine ⟨added', methods', hadded', hplace', ?_⟩
  intro base name
  have hslot : forall {e e' : String × Method}, SameMethod e e' ->
      e'.1 = e.1 ∧ e'.2.name = e.2.name := fun h => Prod.mk.inj h.1
  have hforth : Matching Method.name (fun m => (m.onPointer, m.signature))
      ((methods.get? base).getD []) ((methods'.get? base).getD []) := by
    intro m hm
    rcases hsame.mem_right ((mem_iff_placed hplaced).mp hm) with ⟨e', he', hboth⟩
    refine ⟨e'.2, (mem_iff_placed hplaced').mpr ?_, (hslot hboth).2,
      Prod.ext hboth.2.1 hboth.2.2⟩
    rw [← show e'.1 = base from (hslot hboth).1]
    exact he'
  have hback : Matching Method.name (fun m => (m.onPointer, m.signature))
      ((methods'.get? base).getD []) ((methods.get? base).getD []) := by
    intro m hm
    rcases hsame.mem_left ((mem_iff_placed hplaced').mp hm) with ⟨e, he, hboth⟩
    refine ⟨e.2, (mem_iff_placed hplaced).mpr ?_, (hslot hboth).2.symm,
      Prod.ext hboth.2.1.symm hboth.2.2.symm⟩
    rw [show base = e.1 from (hslot hboth).1]
    exact he
  exact map_find?_eq (nodup_names_of_placed hplaced hnodup base)
    (nodup_names_of_placed hplaced' hnodup' base) hforth hback name

theorem name_typeFinding {methods : Table (List Method)} {name : String} {d : TypeDecl}
    {x : TypeDef} (h : sc.typeFinding v methods name d = some x) : x.name.name = name := by
  unfold typeFinding at h
  dsimp only at h
  split at h
  · rcases Option.map_eq_some_iff.mp h with ⟨type, _, rfl⟩
    rfl
  · rcases Option.map_eq_some_iff.mp h with ⟨type, _, rfl⟩
    rfl

theorem typeFinding_relocate (hpath : other.path = sc.path) {methods methods' : Table (List Method)}
    (hmethods : SameTable methods methods')
    {name : String} {d : TypeDecl} {x : TypeDef} (h : sc.typeFinding v methods name d = some x)
    (f : Source.Extent -> Source.Extent) :
    exists x', other.typeFinding v methods' name (d.relocate f) = some x' ∧
      x'.meaning = x.meaning := by
  unfold typeFinding at h ⊢
  dsimp only at h ⊢
  rw [hpath]
  split at h
  · next halias =>
      rcases Option.map_eq_some_iff.mp h with ⟨type, htype, rfl⟩
      rw [if_pos (show (d.relocate f).spec.isAlias = true from halias), htype]
      exact ⟨_, rfl, rfl⟩
  · next halias =>
      rcases Option.map_eq_some_iff.mp h with ⟨type, htype, rfl⟩
      rw [if_neg (show ¬ (d.relocate f).spec.isAlias = true from halias), htype]
      refine ⟨_, rfl, ?_⟩
      exact congrArg (fun names => (TypeName.declared sc.path name, type, false, names))
        (funext (hmethods name))

theorem constFinding_relocate {d : ConstDecl} {c : Option ConstDef}
    (h : constFinding v d = some c) (f : Source.Extent -> Source.Extent) :
    exists c', constFinding v (d.relocate f) = some c' ∧
      c'.map (fun c => (c.name, c.type, c.value)) = c.map fun c => (c.name, c.type, c.value) := by
  unfold constFinding at h ⊢
  rcases Option.map_eq_some_iff.mp h with ⟨value, hvalue, rfl⟩
  rw [show v.const (d.relocate f).name = some value from hvalue]
  refine ⟨_, rfl, ?_⟩
  cases value with
  | none => rfl
  | some value => rfl

theorem name_constFinding {d : ConstDecl} {c : ConstDef} (h : constFinding v d = some (some c)) :
    c.name = d.name := by
  rcases Option.map_eq_some_iff.mp h with ⟨value, _, heq⟩
  rcases Option.map_eq_some_iff.mp heq with ⟨_, _, rfl⟩
  rfl

theorem sublist_names {R : ConstDecl -> Option ConstDef -> Prop}
    (hR : forall d c, R d (some c) -> c.name = d.name) {decls : List ConstDecl}
    {consts : List (Option ConstDef)} (h : List.Forall₂ R decls consts) :
    ((consts.filterMap id).map ConstDef.name).Sublist (decls.map ConstDecl.name) := by
  induction h with
  | nil => exact List.Sublist.refl _
  | @cons d c decls consts hd _ ih =>
      cases c with
      | none => exact ih.cons _
      | some c =>
          show (c.name :: (consts.filterMap id).map ConstDef.name).Sublist
            (d.name :: decls.map ConstDecl.name)
          rw [hR d c hd]
          exact ih.cons_cons _

section Types

variable {methods methods' : Table (List Method)} {types types' : List TypeDef}

theorem nodup_names_types
    (h : (sc.types.entries.mapM fun entry => sc.typeFinding v methods entry.1 entry.2) =
      some types) : (types.map fun d => d.name.name).Nodup := by
  have hname : forall (entry : String × TypeDecl) (x : TypeDef),
      sc.typeFinding v methods entry.1 entry.2 = some x -> x.name.name = entry.1 :=
    fun _ _ h => name_typeFinding h
  have hnames := map_eq_map_of_forall₂ hname (mapM_eq_some_iff.mp h)
  rw [hnames]
  exact sc.types.keys_nodup

theorem exists_types (hscope : Corresponds sc other)
    (hmethods : SameTable methods methods')
    (h : (sc.types.entries.mapM fun entry => sc.typeFinding v methods entry.1 entry.2) =
      some types) :
    exists types', (other.types.entries.mapM fun entry =>
        other.typeFinding v methods' entry.1 entry.2) = some types' ∧
      forall name, (types'.find? fun d => d.name.name == name).map TypeDef.meaning =
        (types.find? fun d => d.name.name == name).map TypeDef.meaning := by
  have hpairs := mapM_eq_some_iff.mp h
  -- Every declaration of the other scope is one of this scope, elsewhere.
  have hback : forall entry, entry ∈ other.types.entries -> exists x x', x ∈ types ∧
      other.typeFinding v methods' entry.1 entry.2 = some x' ∧ x'.meaning = x.meaning := by
    rintro ⟨name, d'⟩ hentry
    rcases hscope.declares (Table.mem_entries_iff.mp hentry) with ⟨d, f, hd, _, rfl⟩
    rcases exists_mem_right hpairs (Table.mem_entries_iff.mpr hd) with ⟨x, hx, hfinding⟩
    rcases typeFinding_relocate hscope.path hmethods hfinding f with ⟨x', hx', hmeaning⟩
    exact ⟨x, x', hx, hx', hmeaning⟩
  have hsome : forall entry, entry ∈ other.types.entries ->
      exists x', other.typeFinding v methods' entry.1 entry.2 = some x' := by
    intro entry hentry
    rcases hback entry hentry with ⟨_, x', _, hx', _⟩
    exact ⟨x', hx'⟩
  rcases exists_mapM hsome with ⟨types', htypes'⟩
  have hpairs' := mapM_eq_some_iff.mp htypes'
  refine ⟨types', htypes', ?_⟩
  refine map_find?_eq (nodup_names_types h) (nodup_names_types htypes') ?_ ?_
  · intro x hx
    rcases exists_mem_left hpairs hx with ⟨⟨name, d⟩, hentry, hfinding⟩
    rcases hscope.declared name d (Table.mem_entries_iff.mp hentry) with ⟨f, _, hmoved⟩
    rcases exists_mem_right hpairs' (Table.mem_entries_iff.mpr hmoved) with ⟨x', hx', hfinding'⟩
    rcases typeFinding_relocate hscope.path hmethods hfinding f with ⟨_, hsame, hmeaning⟩
    cases hsame.symm.trans hfinding'
    exact ⟨x', hx', congrArg (fun m => m.1.name) hmeaning, hmeaning⟩
  · intro x' hx'
    rcases exists_mem_left hpairs' hx' with ⟨entry, hentry, hfinding'⟩
    rcases hback entry hentry with ⟨x, _, hx, hsame, hmeaning⟩
    cases hsame.symm.trans hfinding'
    exact ⟨x, hx, (congrArg (fun m => m.1.name) hmeaning).symm, hmeaning.symm⟩

end Types

theorem exists_consts (hscope : Corresponds sc other)
    (hnodup : (sc.consts.map ConstDecl.name).Nodup)
    (hnodup' : (other.consts.map ConstDecl.name).Nodup) {consts : List (Option ConstDef)}
    (h : sc.consts.mapM (constFinding v) = some consts) :
    exists consts', other.consts.mapM (constFinding v) = some consts' ∧
      forall name,
        ((consts'.filterMap id).find? fun c => c.name == name).map (fun c => (c.type, c.value)) =
          ((consts.filterMap id).find? fun c => c.name == name).map fun c => (c.type, c.value) := by
  have hpairs := mapM_eq_some_iff.mp h
  have hback : forall d', d' ∈ other.consts -> exists c c', c ∈ consts ∧
      constFinding v d' = some c' ∧
      c'.map (fun c => (c.name, c.type, c.value)) = c.map fun c => (c.name, c.type, c.value) := by
    intro d' hd'
    rcases hscope.constants (const?_of_mem hnodup' hd') with ⟨d, f, hd, _, rfl⟩
    rcases exists_mem_right hpairs (mem_of_const? hd).1 with ⟨c, hc, hfinding⟩
    rcases constFinding_relocate hfinding f with ⟨c', hc', hsame⟩
    exact ⟨c, c', hc, hc', hsame⟩
  have hsome : forall d', d' ∈ other.consts -> exists c', constFinding v d' = some c' := by
    intro d' hd'
    rcases hback d' hd' with ⟨_, c', _, hc', _⟩
    exact ⟨c', hc'⟩
  rcases exists_mapM hsome with ⟨consts', hconsts'⟩
  have hpairs' := mapM_eq_some_iff.mp hconsts'
  refine ⟨consts', hconsts', ?_⟩
  refine map_find?_eq (hnodup.sublist (sublist_names (fun _ _ => name_constFinding) hpairs))
    (hnodup'.sublist (sublist_names (fun _ _ => name_constFinding) hpairs')) ?_ ?_
  · intro c hc
    have hmem : some c ∈ consts := by simpa using hc
    rcases exists_mem_left hpairs hmem with ⟨d, hd, hfinding⟩
    rcases hscope.constant d.name d (const?_of_mem hnodup hd) with ⟨f, _, hmoved⟩
    rcases exists_mem_right hpairs' (mem_of_const? hmoved).1 with ⟨c', hc', hfinding'⟩
    rcases constFinding_relocate hfinding f with ⟨_, hsame, hcontent⟩
    cases hsame.symm.trans hfinding'
    rcases Option.map_eq_some_iff.mp hcontent with ⟨c', rfl, heq⟩
    exact ⟨c', by simpa using hc', congrArg Prod.fst heq, congrArg Prod.snd heq⟩
  · intro c' hc'
    have hmem : some c' ∈ consts' := by simpa using hc'
    rcases exists_mem_left hpairs' hmem with ⟨d', hd', hfinding'⟩
    rcases hback d' hd' with ⟨c, _, hc, hsame, hcontent⟩
    cases hsame.symm.trans hfinding'
    rcases Option.map_eq_some_iff.mp hcontent.symm with ⟨c, rfl, heq⟩
    exact ⟨c, by simpa using hc, congrArg Prod.fst heq, congrArg Prod.snd heq⟩

/-- Scopes with the same declarations lead to the same findings for the same values. -/
theorem findings_corresponds (hscope : Corresponds sc other)
    (hmethods : Arranged MethodSource.Moved sc.methods other.methods)
    (hnodup : (sc.consts.map ConstDecl.name).Nodup)
    (hnodup' : (other.consts.map ConstDecl.name).Nodup) {name : String} {found : CheckedPackage}
    (h : sc.findings answers v name = some found) :
    exists found', other.findings answers v name = some found' ∧
      found'.typeNamed = found.typeNamed ∧ found'.constNamed = found.constNamed := by
  unfold findings at h
  rcases Option.bind_eq_some_iff.mp h with ⟨added, hadded, h⟩
  rcases Option.bind_eq_some_iff.mp h with ⟨methods, hplace, h⟩
  rcases Option.bind_eq_some_iff.mp h with ⟨types, htypes, h⟩
  rcases Option.bind_eq_some_iff.mp h with ⟨consts, hconsts, h⟩
  cases h
  rcases exists_methods hscope.toAlike hmethods hadded hplace with
    ⟨added', methods', hadded', hplace', hsame⟩
  rcases exists_types hscope hsame htypes with ⟨types', htypes', hsameTypes⟩
  rcases exists_consts hscope hnodup hnodup' hconsts with ⟨consts', hconsts', hsameConsts⟩
  refine ⟨⟨name, types', consts'.filterMap id, other.importList⟩, ?_, funext hsameTypes,
    funext hsameConsts⟩
  refine Option.bind_eq_some_iff.mpr ⟨added', hadded', ?_⟩
  refine Option.bind_eq_some_iff.mpr ⟨methods', hplace', ?_⟩
  refine Option.bind_eq_some_iff.mpr ⟨types', htypes', ?_⟩
  exact Option.bind_eq_some_iff.mpr ⟨consts', hconsts', rfl⟩

end Transfer

end Scope
end GoAtlas
