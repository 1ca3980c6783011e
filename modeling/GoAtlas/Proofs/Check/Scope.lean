import GoAtlas.Proofs.Check.Yields
import GoAtlas.Proofs.Session.Closure

/-!
# The scope of a package

The first pass of a check binds every import to what the session remembers for its path.  A
binding without a package belongs to `unsafe`, or there is a hard complaint.
-/

namespace GoAtlas

def Complained (errors : List TypeError) : Prop :=
  exists e, e ∈ errors ∧ e.isSoft = false

theorem Complained.append {errors : List TypeError} (h : Complained errors)
    (more : List TypeError) : Complained (errors ++ more) := by
  rcases h with ⟨e, he, hhard⟩
  exact ⟨e, List.mem_append_left _ he, hhard⟩

namespace Session

/-- A sound session in which the package at `path` is being checked. -/
structure Checking (path : String) (s : Session) : Prop where
  sound : s.Sound
  new : s.cache.get? path = none
  pending : path ∈ s.pending

/-- What a check may rely on when it asks for packages. -/
structure Answering (importer : LocalImporter) : Prop where
  grows : forall q s, Grows s (importer q s).2
  sound : forall q s, s.Sound -> (importer q s).2.Sound
  told : forall q s p, (importer q s).1 = .ok p ->
    (importer q s).2.cache.get? q = some (.resolved p)
  known : forall q s p, s.cache.get? q = some (.resolved p) -> (importer q s).1 = .ok p

theorem Checking.request {path : String} {s : Session} (h : s.Checking path)
    {importer : LocalImporter} (himporter : Answering importer) (q : String) :
    (importer q s).2.Checking path where
  sound := himporter.sound q s h.sound
  new := ((himporter.grows q s).cache path (Or.inr h.pending)).trans h.new
  pending := (himporter.grows q s).pending ▸ h.pending

end Session

/-- A pass that keeps an invariant, never withdraws a complaint and lets the session grow. -/
def Course.ofPass {σ : Type} (importer : Session.LocalImporter) (errors : σ -> List TypeError)
    (Holds : Place σ -> Prop) (May : String -> Session -> Prop) : Course σ where
  importer := importer
  Holds := Holds
  May := May
  Leads w v := Session.Grows w.2 v.2 ∧ (Complained (errors w.1) -> Complained (errors v.1))
  refl w := ⟨Session.Grows.refl w.2, fun h => h⟩
  trans huv hvw := ⟨huv.1.trans hvw.1, fun h => hvw.2 (huv.2 h)⟩

/-!
# Bindings
-/

def Answered (reason : Prop) (s : Session) (path : String) : Option Package -> Prop
  | some p => s.cache.get? path = some (.resolved p)
  | none => reason

theorem Answered.mono {reason reason' : Prop} {s t : Session} {path : String}
    {answer : Option Package} (h : Answered reason s path answer)
    (hreason : reason -> reason') (hgrows : Session.Grows s t) :
    Answered reason' t path answer := by
  cases answer with
  | none => exact hreason h
  | some p => exact hgrows.cached h

def Binding.Kept (complained : Prop) (s : Session) (b : Binding) : Prop :=
  Answered (b.isUnsafe = true ∨ complained) s b.path b.package

namespace FileScope

def Bound (complained : Prop) (s : Session) (f : FileScope) : Prop :=
  forall b, (exists label, f.imports.get? label = some b) ∨ b ∈ f.dots -> b.Kept complained s

theorem bound_ofQualifiers (complained : Prop) (s : Session) (qualifiers : List String) :
    (ofQualifiers qualifiers).Bound complained s := by
  intro b hb
  rcases hb with ⟨label, hlabel⟩ | hdot
  · cases hlabel
  · cases hdot

theorem Bound.addImport {complained : Prop} {s : Session} {f : FileScope}
    (h : f.Bound complained s) {b : Binding} (hb : b.Kept complained s) (label : String)
    (named : List (String × String × Nat)) :
    Bound complained s { f with imports := f.imports.insert label b, named := named } := by
  intro other hother
  rcases hother with ⟨l, hl⟩ | hdot
  · exact Table.forall_get?_insert (P := fun _ b => b.Kept complained s)
      (fun l b hl => h b (Or.inl ⟨l, hl⟩)) hb l other hl
  · exact h other (Or.inr hdot)

theorem Bound.addDot {complained : Prop} {s : Session} {f : FileScope}
    (h : f.Bound complained s) {b : Binding} (hb : b.Kept complained s) :
    Bound complained s { f with dots := f.dots ++ [b] } := by
  intro other hother
  rcases hother with hlabel | hdot
  · exact h other (Or.inl hlabel)
  · rcases List.mem_append.mp hdot with hold | hnew
    · exact h other (Or.inr hold)
    · rw [List.mem_singleton.mp hnew]
      exact hb

end FileScope

namespace Scope

def Bound (complained : Prop) (s : Session) (sc : Scope) : Prop :=
  forall file, (sc.fileScope file).Bound complained s

theorem Bound.mono {complained complained' : Prop} {s t : Session} {sc : Scope}
    (h : sc.Bound complained s) (hcomplained : complained -> complained')
    (hgrows : Session.Grows s t) : sc.Bound complained' t :=
  fun file b hb => (h file b hb).mono (Or.imp_right hcomplained) hgrows

theorem fileScope_updateFile (sc : Scope) (file other : String) (f : FileScope -> FileScope) :
    (sc.updateFile file f).fileScope other =
      if other = file then f (sc.fileScope file) else sc.fileScope other := by
  unfold updateFile
  show ((sc.files.insert file (f (sc.fileScope file))).get? other).getD _ = _
  rw [Table.get?_insert]
  split
  · rfl
  · rfl

theorem Bound.updateFile {complained : Prop} {s : Session} {sc : Scope}
    (h : sc.Bound complained s) {file : String} {f : FileScope -> FileScope}
    (hf : (f (sc.fileScope file)).Bound complained s) :
    (sc.updateFile file f).Bound complained s := by
  intro other
  rw [fileScope_updateFile]
  split
  · exact hf
  · exact h other

end Scope

namespace Collect

/-!
# The pass
-/

structure Invariant (path : String) (w : Place Collection) : Prop where
  session : w.2.Checking path
  home : w.1.scope.path = path
  packages : forall q answer, w.1.packages.get? q = some answer ->
    Answered (Complained w.1.errors) w.2 q answer
  bindings : w.1.scope.Bound (Complained w.1.errors) w.2

def course (importer : Session.LocalImporter) (path : String) : Course Collection :=
  Course.ofPass importer (fun c => c.errors) (Invariant path) fun _ _ => True

variable {importer : Session.LocalImporter} {path : String} {w : Place Collection}

theorem yields_complain (file : String) (line : Nat) (complaint : Complaint) :
    Yields (course importer path) (complain file line complaint) w
      fun _ v => Complained v.1.errors := by
  have hcomplained : forall errors : List TypeError,
      Complained (errors ++ [⟨complaint, false, some file, some line⟩]) := by
    intro errors
    exact ⟨_, List.mem_append_right _ List.mem_cons_self, rfl⟩
  refine Yields.modify ?_ ⟨Session.Grows.refl _, fun _ => hcomplained _⟩ (hcomplained _)
  intro h
  exact
    { session := h.session
      home := h.home
      packages := fun q answer hq =>
        (h.packages q answer hq).mono (fun _ => hcomplained _) (Session.Grows.refl _)
      bindings := h.bindings.mono (fun _ => hcomplained _) (Session.Grows.refl _) }

theorem yields_updateScope {f : Scope -> Scope} (hpath : (f w.1.scope).path = w.1.scope.path)
    (hbound : w.1.scope.Bound (Complained w.1.errors) w.2 ->
      (f w.1.scope).Bound (Complained w.1.errors) w.2) :
    Yields (course importer path) (updateScope f) w fun _ _ => True := by
  refine Yields.modify ?_ ⟨Session.Grows.refl _, fun h => h⟩ trivial
  intro h
  exact
    { session := h.session
      home := hpath.trans h.home
      packages := h.packages
      bindings := hbound h.bindings }

theorem yields_declare (file : String) (x : Source.Extent) :
    Yields (course importer path) (declare file x) w fun _ _ => True := by
  unfold declare
  split
  · exact Yields.pure trivial
  · refine Yields.get_bind ?_
    split
    · apply (yields_complain file x.line _).bind
      intro _ v _ _
      exact Yields.pure trivial
    · exact Yields.pure trivial

theorem yields_declare_bind {file : String} {x : Source.Extent} {m : Collect Unit}
    (hm : forall v, Yields (course importer path) m v fun _ _ => True) :
    Yields (course importer path) (do if ← declare file x then m) w fun _ _ => True := by
  apply (yields_declare file x).bind
  intro isFree v _ _
  split
  · exact hm v
  · exact Yields.pure trivial

/-!
# Imports
-/

theorem yields_request (himporter : Session.Answering importer) (q : String) :
    Yields (course importer path) (StateT.lift (Inquiry.request q)) w
      fun answer v => forall p, answer = .ok p -> v.2.cache.get? q = some (.resolved p) := by
  refine Yields.request trivial ?_
  intro h
  have hgrows := himporter.grows q w.2
  refine ⟨?_, ⟨hgrows, fun h => h⟩, himporter.told q w.2⟩
  exact
    { session := h.session.request himporter q
      home := h.home
      packages := fun r answer hr => (h.packages r answer hr).mono (fun h => h) hgrows
      bindings := h.bindings.mono (fun h => h) hgrows }

theorem yields_remember {q : String} {package : Option Package}
    (hpackage : Answered (Complained w.1.errors) w.2 q package) :
    Yields (course importer path) (do
      modify fun c => { c with packages := c.packages.insert q package }
      return package) w fun answer v => Answered (Complained v.1.errors) v.2 q answer := by
  refine Yields.bind (P := fun _ v => Answered (Complained v.1.errors) v.2 q package)
    (Yields.modify ?_ ⟨Session.Grows.refl _, fun h => h⟩ hpackage) fun _ _ _ h => Yields.pure h
  intro h
  exact ⟨h.session, h.home, Table.forall_get?_insert h.packages hpackage, h.bindings⟩

theorem yields_addNamed {file label : String} {b : Binding} {line : Nat}
    (hb : b.Kept (Complained w.1.errors) w.2) :
    Yields (course importer path) (addNamed file label b line) w fun _ _ => True :=
  yields_updateScope rfl fun h => h.updateFile ((h file).addImport hb label _)

section Imports

variable (himporter : Session.Answering importer)

include himporter

theorem yields_importPackage (file : String) (line : Nat) (q : String) :
    Yields (course importer path) (importPackage file line q) w
      fun answer v => Answered (Complained v.1.errors) v.2 q answer := by
  unfold importPackage
  refine Yields.of_holds fun hw => Yields.get_bind ?_
  cases hknown : w.1.packages.get? q with
  | some answer => exact Yields.pure (hw.packages q answer hknown)
  | none =>
      apply (yields_request himporter q).bind
      intro answer v _ htold
      dsimp only
      cases answer with
      | ok p =>
          rw [pure_bind]
          exact yields_remember (htold p rfl)
      | error cause =>
          apply (yields_complain file line _).bind
          intro _ u _ hcomplained
          rw [pure_bind]
          have hanswer : Answered (Complained u.1.errors) u.2 q none := hcomplained
          exact yields_remember hanswer

theorem yields_bind (file : String) (line : Nat) (q : String) :
    Yields (course importer path) (Collect.bind file line q) w
      fun b v => b.Kept (Complained v.1.errors) v.2 := by
  unfold Collect.bind
  have hlist : forall (package : Option Package) (v : Place Collection),
      Answered ((q == "unsafe") = true ∨ Complained v.1.errors) v.2 q package ->
      Yields (course importer path) (do
        updateScope fun s => { s with importPaths := s.importPaths ++ [q] }
        return Binding.mk q package (q == "unsafe")) v
        fun b v => b.Kept (Complained v.1.errors) v.2 := by
    intro package v hpackage
    apply (yields_updateScope rfl fun h => h).bind
    intro _ u hvu _
    exact Yields.pure (hpackage.mono (Or.imp_right hvu.2) hvu.1)
  dsimp only
  split
  · next hunsafe =>
      rw [pure_bind]
      exact hlist none w (Or.inl hunsafe)
  · apply (yields_importPackage himporter file line q).bind
    intro package v _ hpackage
    exact hlist package v (hpackage.mono Or.inr (Session.Grows.refl _))

theorem yields_importSpec (file : String) (spec : Source.ImportSpec) :
    Yields (course importer path) (importSpec file spec) w fun _ _ => True := by
  unfold importSpec
  split
  · exact (yields_complain file _ _).mono fun _ _ _ _ _ => trivial
  · exact Yields.pure trivial
  · next q _ _ =>
      apply (yields_bind himporter file _ q).bind
      intro b v _ hb
      split
      · refine yields_updateScope rfl fun h => h.updateFile ((h file).addDot hb)
      · exact Yields.pure trivial
      · exact yields_addNamed hb
      · exact yields_addNamed hb

end Imports

/-!
# Declarations
-/

theorem yields_typeSpec (file : String) (spec : Source.TypeSpec) :
    Yields (course importer path) (typeSpec file spec) w fun _ _ => True :=
  yields_declare_bind fun _ => yields_updateScope rfl fun h => h

theorem yields_otherName (file : String) (x : Source.Extent) :
    Yields (course importer path) (otherName file x) w fun _ _ => True :=
  yields_declare_bind fun _ => yields_updateScope rfl fun h => h

theorem yields_constNames (file : String) (spec : Source.Extent)
    (type : Option Source.TypeExpr) (iota : Nat) (names : List Source.Extent)
    (values : List Source.Expr) :
    Yields (course importer path) (constNames file spec type iota names values) w
      fun _ _ => True := by
  induction names generalizing values w with
  | nil => exact Yields.pure trivial
  | cons x names ih =>
      unfold constNames
      apply (yields_declare file x).bind
      intro isFree v _ _
      dsimp only
      split
      · apply (yields_updateScope rfl fun h => h).bind
        intro _ u _ _
        exact ih values.tail
      · exact ih values.tail

theorem yields_constSpecs (file : String)
    (last : Option (Option Source.TypeExpr × List Source.Expr)) (iota : Nat)
    (specs : List Source.ConstSpec) :
    Yields (course importer path) (constSpecs file last iota specs) w fun _ _ => True := by
  induction specs generalizing last iota w with
  | nil => exact Yields.pure trivial
  | cons spec rest ih =>
      have hnames : forall (type : Option Source.TypeExpr) (values : List Source.Expr)
          (last : Option (Option Source.TypeExpr × List Source.Expr)) (v : Place Collection),
          Yields (course importer path) (do
            constNames file spec.extent type iota spec.names values
            constSpecs file last (iota + 1) rest) v fun _ _ => True := by
        intro type values last v
        apply (yields_constNames file spec.extent type iota spec.names values).bind
        intro _ u _ _
        exact ih last (iota + 1)
      unfold constSpecs
      dsimp only
      split
      · apply (yields_complain file _ _).bind
        intro _ v _ _
        exact hnames _ _ _ v
      · split
        · apply (yields_complain file _ _).bind
          intro _ v _ _
          exact hnames _ _ _ v
        · exact hnames _ _ _ w

theorem yields_decl (himporter : Session.Answering importer) (file : String)
    (d : Source.Decl) : Yields (course importer path) (decl file d) w fun _ _ => True := by
  cases d with
  | imports specs =>
      exact Yields.forM (P := fun _ => True)
        (fun spec _ _ _ => yields_importSpec himporter file spec) trivial
  | types specs =>
      exact Yields.forM (P := fun _ => True) (fun spec _ _ _ => yields_typeSpec file spec) trivial
  | consts specs => exact yields_constSpecs file none 0 specs
  | vars names =>
      exact Yields.forM (P := fun _ => True) (fun x _ _ _ => yields_otherName file x) trivial
  | func name =>
      unfold decl
      dsimp only
      split
      · exact Yields.pure trivial
      · exact yields_otherName file name
  | method d =>
      unfold decl
      exact yields_updateScope rfl fun h => h
  | package clause name => exact Yields.pure trivial
  | statement => exact Yields.pure trivial

theorem yields_fileDecls (himporter : Session.Answering importer) (file : String)
    (source : Source.File) :
    Yields (course importer path) (fileDecls file source) w fun _ _ => True := by
  unfold fileDecls
  refine (yields_updateScope rfl fun h =>
    h.updateFile (FileScope.bound_ofQualifiers _ _ source.qualifiers)).bind ?_
  intro _ v _ _
  exact Yields.forM (P := fun _ => True) (fun d _ _ _ => yields_decl himporter file d) trivial

end Collect

/-- What is known of the scope of a package. -/
theorem collect_invariant {importer : Session.LocalImporter}
    (himporter : Session.Answering importer)
    {p : LoadedPackage} {s : Session} (hs : s.Checking p.importPath) :
    exists c t, (collect p).run importer s = (c, t) ∧ Collect.Invariant p.importPath (c, t) ∧
      Session.Grows s t := by
  have hstart : Collect.Invariant p.importPath
      (⟨Scope.start p.importPath, Table.empty, []⟩, s) :=
    { session := hs
      home := rfl
      packages := fun _ _ hq => by cases hq
      bindings := fun _ => FileScope.bound_ofQualifiers _ _ [] }
  have hpass : Yields (Collect.course importer p.importPath)
      (p.checkedFiles.forM fun f => Collect.fileDecls f.1 f.2)
      (⟨Scope.start p.importPath, Table.empty, []⟩, s) fun _ _ => True :=
    Yields.forM (P := fun _ => True)
      (fun f _ _ _ => Collect.yields_fileDecls himporter f.1 f.2) trivial
  rcases hpass hstart with ⟨⟨u, v, hrun, hv, hleads, _⟩, _⟩
  refine ⟨v.1, v.2, ?_, hv, hleads.1⟩
  have hfiles : Inquiry.run importer (StateT.run
      (p.checkedFiles.forM fun f => Collect.fileDecls f.1 f.2)
      ⟨Scope.start p.importPath, Table.empty, []⟩) s = ((u, v.1), v.2) := hrun
  unfold collect
  dsimp only
  rw [Inquiry.run_bind, hfiles]
  rfl

end GoAtlas
