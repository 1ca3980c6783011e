import GoAtlas.Proofs.Check.ExpressionTracks

/-!
# The second pass in step

What a second pass does depends on its links only: it can be run with any way of following them,
and it goes in step for any two ways that are in step.
-/

namespace GoAtlas
namespace Progress

def recordAlias (name : String) (type : GoType) (p : Progress) : Progress :=
  { p with aliases := p.aliases.insert name type }

def recordUnderlying (name : String) (type : GoType) (p : Progress) : Progress :=
  { p with underlying := p.underlying.insert name type }

def recordValue (i : Nat) (value : Option Valued) (p : Progress) : Progress :=
  { p with values := p.values ++ [(i, value)] }

end Progress

namespace Scope

/-!
# The second pass for any links
-/

section Passes

variable (s : Scope) (links : Links)

def signatureWith (file : String) (tparams : List String) (d : Source.MethodDecl) :
    Resolve (Signature GoType) := do
  let (params, variadic) ← s.paramTypes links file tparams d.params
  let (results, _) ← s.paramTypes links file tparams d.results
  return ⟨params, results, variadic⟩

def checkMethodWith (methods : Table (List Method)) (m : MethodSource) :
    Resolve (Table (List Method)) := do
  let d := m.decl
  match Source.receiverType? d.receiver with
  | none =>
      Resolve.complain m.file d.extent.line .noReceiver
      return methods
  | some type =>
      let r := Source.Receiver.ofType type
      if !s.isLocalType r.base then
        Resolve.complain m.file type.extent.line (.foreignReceiver r.base)
        return methods
      else if d.name.text == "_" then return methods
      else
        let signature ← s.signatureWith links m.file r.tparams d
        addToType m.file d.name.line r.base
          ⟨d.name.text, r.isPointer, signature, some (spanOf m.file d.extent)⟩ methods

def typeDefWith (methods : Table (List Method)) (name : String) (d : TypeDecl) :
    Resolve TypeDef := do
  let span := some (spanOf d.file d.spec.extent)
  let full : TypeName := .declared s.path name
  if d.spec.isAlias then return ⟨full, ← links.aliased name, [], true, span⟩
  else
    let underlying ← links.underlying name
    return ⟨full, underlying, (methods.get? name).getD [], false, span⟩

def constDefWith (i : Nat) (d : ConstDecl) : Resolve (Option ConstDef) := do
  match ← links.const i with
  | some (value, type) => return some ⟨d.name, type, value, some (spanOf d.file d.spec)⟩
  | none => return none

def definitionsWith (name : String) : Resolve CheckedPackage := do
  let methods ← s.methods.foldlM (s.checkMethodWith links) Table.empty
  let types ← s.types.entries.mapM fun (name, d) => s.typeDefWith links methods name d
  let consts ← s.consts.zipIdx.mapM fun (d, i) => constDefWith links i d
  s.checkImports
  return ⟨name, types, consts.filterMap id, s.importList⟩

theorem definitions_eq (name : String) : s.definitions name = s.definitionsWith s.links name := rfl

end Passes

structure StepLinks (T : Tracking) (sc : Scope) (links links' : Links) : Prop where
  aliased : forall name, Tracks T (links.aliased name) (links'.aliased name)
  underlying : forall name, Tracks T (links.underlying name) (links'.underlying name)
  const : forall i d, sc.consts[i]? = some d -> Tracks T (links.const i) (links'.const i)

section Steps

variable {T : Tracking} {sc : Scope} {links links' : Links}

theorem StepLinks.tracked (h : StepLinks T sc links links') :
    TrackedLinks T sc sc links links' where
  aliased := h.aliased
  underlying := h.underlying
  const name i j hi hj := by
    cases hi.symm.trans hj
    rcases List.findIdx?_eq_some_iff_getElem.mp hi with ⟨hlength, _⟩
    exact h.const i _ (List.getElem?_eq_getElem hlength)

theorem keepsText_id : Source.KeepsText id := fun _ => rfl

theorem tracks_aliasBody_same (hT : T.Lawful) (hlinks : TrackedLinks T sc sc links links')
    (d : TypeDecl) : Tracks T (sc.aliasBody links d) (sc.aliasBody links' d) := by
  have hbody := tracks_aliasBody hT (Alike.refl sc) hlinks keepsText_id d
  rw [TypeDecl.relocate_id] at hbody
  exact hbody

theorem tracks_typeBody_same (hT : T.Lawful) (hlinks : TrackedLinks T sc sc links links')
    (d : TypeDecl) : Tracks T (sc.typeBody links d) (sc.typeBody links' d) := by
  have hbody := tracks_typeBody hT (Alike.refl sc) hlinks keepsText_id d
  rw [TypeDecl.relocate_id] at hbody
  exact hbody

theorem tracks_constBody_same (hT : T.Lawful) (hlinks : TrackedLinks T sc sc links links')
    (d : ConstDecl) : Tracks T (sc.constBody links d) (sc.constBody links' d) := by
  have hbody := tracks_constBody hT (Alike.refl sc) hlinks keepsText_id d d.spec
  rw [ConstDecl.relocate_id] at hbody
  exact hbody

theorem tracks_checkMethodWith (hT : T.Lawful) (hlinks : TrackedLinks T sc sc links links')
    (methods : Table (List Method)) (m : MethodSource) :
    Tracks T (sc.checkMethodWith links methods m) (sc.checkMethodWith links' methods m) := by
  have hparams : forall file tparams params, Tracks T (sc.paramTypes links file tparams params)
      (sc.paramTypes links' file tparams params) := by
    intro file tparams params
    have htracks := tracks_paramTypes hT (Alike.refl sc) hlinks keepsText_id file tparams params
    rw [Source.relocateParams_id] at htracks
    exact htracks
  unfold checkMethodWith
  dsimp only
  split
  · exact (hT.complain _ _ _ _).bind fun _ => Tracks.pure _
  · split
    · exact (hT.complain _ _ _ _).bind fun _ => Tracks.pure _
    · split
      · exact Tracks.pure _
      · refine Tracks.bind ?_ fun signature => ?_
        · exact (hparams _ _ _).bind fun _ => (hparams _ _ _).bind fun _ => Tracks.pure _
        · unfold addToType
          dsimp only
          split
          · exact (hT.complain _ _ _ _).bind fun _ => Tracks.pure _
          · exact Tracks.pure _

theorem tracks_typeDefWith (hlinks : StepLinks T sc links links') (methods : Table (List Method))
    (name : String) (d : TypeDecl) :
    Tracks T (sc.typeDefWith links methods name d) (sc.typeDefWith links' methods name d) := by
  unfold typeDefWith
  dsimp only
  split
  · exact (hlinks.aliased name).bind fun _ => Tracks.pure _
  · exact (hlinks.underlying name).bind fun _ => Tracks.pure _

theorem tracks_constDefWith (hlinks : StepLinks T sc links links') {i : Nat} {d : ConstDecl}
    (hd : sc.consts[i]? = some d) :
    Tracks T (constDefWith links i d) (constDefWith links' i d) := by
  unfold constDefWith
  apply (hlinks.const i d hd).bind
  intro value
  split
  · exact Tracks.pure _
  · exact Tracks.pure _

theorem tracks_checkImports (hT : T.Lawful) (sc : Scope) :
    Tracks T sc.checkImports sc.checkImports := by
  refine Tracks.forM _ fun f => Tracks.forM _ fun i => ?_
  unfold checkImport
  dsimp only
  split
  · exact Tracks.pure _
  · exact hT.report _ _ _ _ _

theorem tracks_definitionsWith (hT : T.Lawful) (hlinks : StepLinks T sc links links')
    (name : String) :
    Tracks T (sc.definitionsWith links name) (sc.definitionsWith links' name) :=
  (Tracks.foldlM sc.methods (tracks_checkMethodWith hT hlinks.tracked) _).bind
    fun methods =>
      (Tracks.mapM sc.types.entries fun (entry : String × TypeDecl) _ =>
          tracks_typeDefWith hlinks methods entry.1 entry.2).bind fun _ =>
        (Tracks.mapM sc.consts.zipIdx fun (_ : ConstDecl × Nat) hentry =>
            tracks_constDefWith hlinks (List.mem_zipIdx_iff_getElem?.mp hentry)).bind fun _ =>
          (tracks_checkImports hT sc).bind fun _ => Tracks.pure _

end Steps
end Scope
end GoAtlas
