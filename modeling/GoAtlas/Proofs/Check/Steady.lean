import GoAtlas.Proofs.Answers
import GoAtlas.Proofs.Check.Go

/-!
# Steady passes

Both passes of a check keep a table of the packages they were told about and a list of
complaints.  A steady pass asks only for paths that are not in the table, enters what it is
told, and never takes back a complaint.  The first pass is steady, and so it asks for no path twice.
-/

namespace GoAtlas

/-- The part of a pass that is common to both. -/
structure Ledger where
  packages : Table (Option Package)
  errors : List TypeError

def Collection.ledger (c : Collection) : Ledger := ⟨c.packages, c.errors⟩

def Progress.ledger (p : Progress) : Ledger := ⟨p.packages, p.errors⟩

structure Moves (answers : Answers) (asked : List String) (s t : Ledger) : Prop where
  nodup : asked.Nodup
  new : forall q, q ∈ asked -> s.packages.get? q = none
  told : forall q, q ∈ asked -> t.packages.get? q = some (answers q).toOption
  kept : forall q, q ∉ asked -> t.packages.get? q = s.packages.get? q
  errors : s.errors <+: t.errors

namespace Moves

variable {answers : Answers}

theorem refl (s : Ledger) : Moves answers [] s s where
  nodup := List.nodup_nil
  new _ hq := absurd hq List.not_mem_nil
  told _ hq := absurd hq List.not_mem_nil
  kept _ _ := rfl
  errors := List.prefix_refl _

theorem trans {asked more : List String} {s t u : Ledger} (hst : Moves answers asked s t)
    (htu : Moves answers more t u) : Moves answers (asked ++ more) s u := by
  have hapart : forall q, q ∈ asked -> q ∉ more := by
    intro q hq hmore
    cases (hst.told q hq).symm.trans (htu.new q hmore)
  constructor
  · exact List.nodup_append.mpr
      ⟨hst.nodup, htu.nodup, fun a ha b hb heq => hapart a ha (heq ▸ hb)⟩
  · intro q hq
    by_cases hasked : q ∈ asked
    · exact hst.new q hasked
    · rcases List.mem_append.mp hq with h | hmore
      · exact absurd h hasked
      · rw [← hst.kept q hasked]
        exact htu.new q hmore
  · intro q hq
    by_cases hmore : q ∈ more
    · exact htu.told q hmore
    · rcases List.mem_append.mp hq with hasked | h
      · rw [htu.kept q hmore]
        exact hst.told q hasked
      · exact absurd h hmore
  · intro q hq
    rw [List.mem_append, not_or] at hq
    rw [htu.kept q hq.2, hst.kept q hq.1]
  · exact hst.errors.trans htu.errors

theorem enter (answers : Answers) {s : Ledger} {q : String} (hnew : s.packages.get? q = none)
    (more : List TypeError) :
    Moves answers [q] s ⟨s.packages.insert q (answers q).toOption, s.errors ++ more⟩ where
  nodup := List.nodup_singleton q
  new r hr := by rwa [List.mem_singleton.mp hr]
  told r hr := by
    rw [List.mem_singleton.mp hr]
    exact Table.get?_insert_self _ _ _
  kept r hr := Table.get?_insert_of_ne _ _ fun heq => hr (List.mem_singleton.mpr heq)
  errors := List.prefix_append _ _

end Moves

/-- A pass that is steady, whatever it is told and wherever it begins. -/
def Steady {σ α : Type} (view : σ -> Ledger) (m : StateT σ (Inquiry String) α) : Prop :=
  forall answers s, Moves answers ((m.run s).asked answers) (view s)
    (view ((m.run s).under answers).2)

namespace Steady

/-!
# Rules
-/

variable {σ α β : Type} {view : σ -> Ledger}

theorem pure (a : α) : Steady view (Pure.pure a : StateT σ (Inquiry String) α) :=
  fun _ s => Moves.refl (view s)

theorem bind {m : StateT σ (Inquiry String) α} {f : α -> StateT σ (Inquiry String) β}
    (hm : Steady view m) (hf : forall a, Steady view (f a)) : Steady view (m >>= f) := by
  intro answers s
  rw [StateT.run_bind, Inquiry.asked_bind, Inquiry.under_bind]
  exact (hm answers s).trans (hf _ answers _)

theorem get_bind {f : σ -> StateT σ (Inquiry String) β} (hf : forall s, Steady view (f s)) :
    Steady view (get >>= f) :=
  fun answers s => hf s answers s

theorem modify {f : σ -> σ} (hf : forall s, view (f s) = view s) :
    Steady view (modify f : StateT σ (Inquiry String) PUnit) := by
  intro answers s
  show Moves answers [] (view s) (view (f s))
  rw [hf s]
  exact Moves.refl (view s)

theorem record {f : σ -> σ} (hf : forall s, view (f s) = view s) (a : α) :
    Steady view (do
      MonadStateOf.modifyGet fun s => (PUnit.unit, f s)
      return a : StateT σ (Inquiry String) α) :=
  (modify hf).bind fun _ => pure a

theorem forM (items : List α) {f : α -> StateT σ (Inquiry String) PUnit}
    (hf : forall a, Steady view (f a)) : Steady view (items.forM f) := by
  induction items with
  | nil => exact pure _
  | cons a rest ih => exact (hf a).bind fun _ => ih

end Steady

/-!
# Complaints and packages
-/

namespace Resolve

theorem steady_report (file : String) (line : Nat) (isSoft : Bool) (complaint : Complaint) :
    Steady Progress.ledger (report file line isSoft complaint) := by
  intro answers p
  exact { Moves.refl (Progress.ledger p) with errors := List.prefix_append _ _ }

theorem run_packageAt_known {p : Progress} {path : String} {known : Option Package}
    (h : p.packages.get? path = some known) : (packageAt path).run p = pure (known, p) := by
  unfold packageAt
  rw [StateT.run_bind, StateT.run_get, pure_bind]
  dsimp only
  rw [h]
  rfl

theorem run_packageAt_new {p : Progress} {path : String} (h : p.packages.get? path = none) :
    (packageAt path).run p = Inquiry.ask path fun answer =>
      pure (answer.toOption, { p with packages := p.packages.insert path answer.toOption }) := by
  unfold packageAt
  rw [StateT.run_bind, StateT.run_get, pure_bind]
  dsimp only
  rw [h]
  refine congrArg (Inquiry.ask path) (funext fun answer => ?_)
  cases answer with
  | ok package => rfl
  | error e => rfl

theorem steady_packageAt (path : String) : Steady Progress.ledger (packageAt path) := by
  intro answers p
  cases hknown : p.packages.get? path with
  | some known =>
      rw [run_packageAt_known hknown]
      exact Moves.refl _
  | none =>
      have henter := Moves.enter answers (s := p.ledger) hknown []
      rw [List.append_nil] at henter
      rw [run_packageAt_new hknown]
      exact henter

end Resolve

namespace Collect

theorem steady_complain (file : String) (line : Nat) (complaint : Complaint) :
    Steady Collection.ledger (complain file line complaint) := by
  intro answers c
  exact { Moves.refl (Collection.ledger c) with errors := List.prefix_append _ _ }

theorem steady_updateScope (f : Scope -> Scope) : Steady Collection.ledger (updateScope f) :=
  Steady.modify fun _ => rfl

def importFaults (file : String) (line : Nat) (path : String) : Answer -> List TypeError
  | .ok _ => []
  | .error cause => [⟨.failedImport path cause, false, some file, some line⟩]

theorem run_importPackage_known {c : Collection} {file : String} {line : Nat} {path : String}
    {known : Option Package} (h : c.packages.get? path = some known) :
    (importPackage file line path).run c = pure (known, c) := by
  unfold importPackage
  rw [StateT.run_bind, StateT.run_get, pure_bind]
  dsimp only
  rw [h]
  rfl

theorem run_importPackage_new {c : Collection} {file : String} {line : Nat} {path : String}
    (h : c.packages.get? path = none) :
    (importPackage file line path).run c = Inquiry.ask path fun answer =>
      pure (answer.toOption,
        { c with
          packages := c.packages.insert path answer.toOption
          errors := c.errors ++ importFaults file line path answer }) := by
  unfold importPackage
  rw [StateT.run_bind, StateT.run_get, pure_bind]
  dsimp only
  rw [h]
  refine congrArg (Inquiry.ask path) (funext fun answer => ?_)
  cases answer with
  | ok package =>
      unfold importFaults
      dsimp only
      rw [List.append_nil]
      rfl
  | error e => rfl

theorem steady_importPackage (file : String) (line : Nat) (path : String) :
    Steady Collection.ledger (importPackage file line path) := by
  intro answers c
  cases hknown : c.packages.get? path with
  | some known =>
      rw [run_importPackage_known hknown]
      exact Moves.refl _
  | none =>
      rw [run_importPackage_new hknown]
      exact Moves.enter answers (s := c.ledger) hknown _

/-!
# The first pass
-/

theorem steady_declare (file : String) (x : Source.Extent) :
    Steady Collection.ledger (declare file x) := by
  unfold declare
  split
  · exact Steady.pure _
  · apply Steady.get_bind
    intro c
    split
    · exact (steady_complain _ _ _).bind fun _ => Steady.pure _
    · exact Steady.pure _

theorem steady_bind (file : String) (line : Nat) (path : String) :
    Steady Collection.ledger (Collect.bind file line path) := by
  have hlist : forall package : Option Package, Steady Collection.ledger (do
      updateScope fun s => { s with importPaths := s.importPaths ++ [path] }
      return Binding.mk path package (path == "unsafe")) :=
    fun package => (steady_updateScope _).bind fun _ => Steady.pure _
  unfold Collect.bind
  dsimp only
  split
  · exact (Steady.pure _).bind hlist
  · exact (steady_importPackage file line path).bind hlist

theorem steady_importSpec (file : String) (spec : Source.ImportSpec) :
    Steady Collection.ledger (importSpec file spec) := by
  unfold importSpec
  split
  · exact steady_complain _ _ _
  · exact Steady.pure _
  · apply (steady_bind _ _ _).bind
    intro b
    split
    · exact steady_updateScope _
    · exact Steady.pure _
    · exact steady_updateScope _
    · exact steady_updateScope _

theorem steady_declare_bind {file : String} {x : Source.Extent} {m : Collect Unit}
    (hm : Steady Collection.ledger m) :
    Steady Collection.ledger (do if ← declare file x then m) := by
  apply (steady_declare file x).bind
  intro isFree
  split
  · exact hm
  · exact Steady.pure _

theorem steady_constNames (file : String) (spec : Source.Extent)
    (type : Option Source.TypeExpr) (iota : Nat) (names : List Source.Extent)
    (values : List Source.Expr) :
    Steady Collection.ledger (constNames file spec type iota names values) := by
  induction names generalizing values with
  | nil => exact Steady.pure _
  | cons x names ih =>
      unfold constNames
      apply (steady_declare file x).bind
      intro isFree
      dsimp only
      split
      · exact (steady_updateScope _).bind fun _ => ih values.tail
      · exact ih values.tail

theorem steady_constSpecs (file : String)
    (last : Option (Option Source.TypeExpr × List Source.Expr)) (iota : Nat)
    (specs : List Source.ConstSpec) :
    Steady Collection.ledger (constSpecs file last iota specs) := by
  induction specs generalizing last iota with
  | nil => exact Steady.pure _
  | cons spec rest ih =>
      unfold constSpecs
      dsimp only
      split
      · exact (steady_complain _ _ _).bind fun _ =>
          (steady_constNames _ _ _ _ _ _).bind fun _ => ih _ _
      · split
        · exact (steady_complain _ _ _).bind fun _ =>
            (steady_constNames _ _ _ _ _ _).bind fun _ => ih _ _
        · exact (steady_constNames _ _ _ _ _ _).bind fun _ => ih _ _

theorem steady_decl (file : String) (d : Source.Decl) :
    Steady Collection.ledger (decl file d) := by
  have hother : forall x, Steady Collection.ledger (otherName file x) :=
    fun x => steady_declare_bind (steady_updateScope _)
  cases d with
  | imports specs => exact Steady.forM specs (steady_importSpec file)
  | types specs => exact Steady.forM specs fun spec => steady_declare_bind (steady_updateScope _)
  | consts specs => exact steady_constSpecs file none 0 specs
  | vars names => exact Steady.forM names hother
  | func name =>
      unfold decl
      dsimp only
      split
      · exact Steady.pure _
      · exact hother name
  | method d => exact steady_updateScope fun s => { s with methods := s.methods ++ [⟨file, d⟩] }
  | package clause name => exact Steady.pure _
  | statement => exact Steady.pure _

theorem steady_fileDecls (file : String) (source : Source.File) :
    Steady Collection.ledger (fileDecls file source) :=
  (steady_updateScope _).bind fun _ => Steady.forM _ (steady_decl file)

end Collect

/-!
# The whole check
-/

def collecting (p : LoadedPackage) : Collect Unit :=
  p.checkedFiles.forM fun f => Collect.fileDecls f.1 f.2

def Collection.start (p : LoadedPackage) : Collection :=
  ⟨Scope.start p.importPath, Table.empty, []⟩

theorem collect_eq (p : LoadedPackage) :
    collect p = (fun r => r.2) <$> (collecting p).run (Collection.start p) := rfl

def Collection.progress (c : Collection) : Progress :=
  ⟨c.packages, Table.empty, Table.empty, [], c.errors⟩

theorem checkGo_eq (p : LoadedPackage) :
    checkGo p = do
      let c ← collect p
      let r ← (c.scope.definitions p.name).run c.progress
      return ⟨r.1, r.2.errors⟩ := rfl

theorem under_collect (p : LoadedPackage) (answers : Answers) :
    (collect p).under answers = (((collecting p).run (Collection.start p)).under answers).2 := by
  rw [collect_eq, map_eq_pure_bind, Inquiry.under_bind]
  rfl

/-- What is asked for in the first pass, and what is told, is in the table. -/
theorem moves_collect (p : LoadedPackage) (answers : Answers) :
    Moves answers ((collect p).asked answers) ⟨Table.empty, []⟩
      ((collect p).under answers).ledger := by
  have hmoves := Steady.forM p.checkedFiles
    (fun f : String × Source.File => Collect.steady_fileDecls f.1 f.2) answers
    (Collection.start p)
  rw [under_collect, collect_eq, map_eq_pure_bind, Inquiry.asked_bind, Inquiry.asked_pure,
    List.append_nil]
  exact hmoves

theorem once_collect (p : LoadedPackage) : (collect p).Once :=
  fun answers => (moves_collect p answers).nodup

def definedUnder (answers : Answers) (p : LoadedPackage) : CheckedPackage × Progress :=
  ((((collect p).under answers).scope.definitions p.name).run
    ((collect p).under answers).progress).under answers

theorem under_checkGo (p : LoadedPackage) (answers : Answers) :
    (checkGo p).under answers =
      ⟨(definedUnder answers p).1, (definedUnder answers p).2.errors⟩ := by
  rw [checkGo_eq, Inquiry.under_bind, Inquiry.under_bind]
  rfl

end GoAtlas
