import GoAtlas.Proofs.Check.Lossless
import GoAtlas.Proofs.Check.Rearranged
import GoAtlas.Proofs.Check.TwinScopes

/-!
# Sources that stand elsewhere

Two packages whose items are the same, in the same order, but stand at other places are checked
with the same outcome, places aside.  Both passes go in step: the scopes hold the same
declarations, perhaps moved, and every complaint is made by both, perhaps on different lines.
-/

namespace GoAtlas

/-!
# Outcomes without places
-/

def TypeError.unplaced (e : TypeError) : TypeError := { e with line := none }

def Method.unplaced (m : Method) : Method := { m with span := none }

def TypeDef.unplaced (d : TypeDef) : TypeDef :=
  { d with methods := d.methods.map Method.unplaced, span := none }

def ConstDef.unplaced (d : ConstDef) : ConstDef := { d with span := none }

def CheckedPackage.unplaced (p : CheckedPackage) : CheckedPackage :=
  { p with types := p.types.map TypeDef.unplaced, consts := p.consts.map ConstDef.unplaced }

/-- What was found and what there is to complain of, without lines and offsets. -/
def CheckOutcome.unplaced (o : CheckOutcome) : CheckOutcome :=
  ⟨o.package.unplaced, o.errors.map TypeError.unplaced⟩

/-!
# Items
-/

namespace Item

/-- The same item, perhaps elsewhere.  A line of constants may have other text, and a file may list
its qualifiers in another way. -/
inductive Elsewhere : Item -> Item -> Prop where
  | opening (file : String) {qualifiers qualifiers' : List String}
      (h : forall q, q ∈ qualifiers' ↔ q ∈ qualifiers) :
      Elsewhere (.opening file qualifiers) (.opening file qualifiers')
  | moved {i i' : Item} (h : Moved i i') (hopening : forall file names, i ≠ .opening file names) :
      Elsewhere i i'
  | const {f : Source.Extent -> Source.Extent} (hf : Source.KeepsText f) (file : String)
      {x x' : Source.Extent} (hx : x'.text = x.text) (spec spec' : Source.Extent)
      (type : Option Source.TypeExpr) (expr : Option Source.Expr) (iota : Nat) :
      Elsewhere (.claim file x (.const spec type expr iota))
        (.claim file x' (.const spec' (type.map (Source.TypeExpr.relocate f))
          (expr.map (Source.Expr.relocate f)) iota))

end Item

/-!
# The first pass
-/

structure FileScope.Elsewhere (s s' : FileScope) : Prop extends FileScope.SameView s s' where
  named : List.Forall₂ (fun i i' => i'.1 = i.1 ∧ i'.2.1 = i.2.1) s.named s'.named
  qualifiers : forall q, q ∈ s'.qualifiers ↔ q ∈ s.qualifiers

theorem FileScope.elsewhere_ofQualifiers {qualifiers qualifiers' : List String}
    (h : forall q, q ∈ qualifiers' ↔ q ∈ qualifiers) :
    (FileScope.ofQualifiers qualifiers).Elsewhere (.ofQualifiers qualifiers') :=
  ⟨⟨rfl, rfl⟩, .nil, h⟩

theorem Table.alike_empty {α β : Type} {R : α -> β -> Prop} :
    (Table.empty : Table α).Alike R (Table.empty : Table β) := List.Forall₂.nil

namespace Scope

structure Elsewhere (sc sc' : Scope) : Prop where
  path : sc'.path = sc.path
  files : sc.files.Alike FileScope.Elsewhere sc'.files
  importPaths : sc'.importPaths = sc.importPaths
  types : sc.types.Alike TypeDecl.Moved sc'.types
  consts : List.Forall₂ ConstDecl.Moved sc.consts sc'.consts
  others : sc'.others = sc.others
  methods : List.Forall₂ MethodSource.Moved sc.methods sc'.methods

namespace Elsewhere

variable {sc sc' : Scope}

theorem fileScope (h : sc.Elsewhere sc') (file : String) :
    (sc.fileScope file).Elsewhere (sc'.fileScope file) := by
  unfold Scope.fileScope
  have hfile := h.files.get? file
  revert hfile
  generalize sc.files.get? file = f, sc'.files.get? file = f'
  intro hfile
  cases hfile with
  | none => exact FileScope.elsewhere_ofQualifiers fun _ => Iff.rfl
  | some hf => exact hf

theorem updateFile (h : sc.Elsewhere sc') (file : String) {f f' : FileScope -> FileScope}
    (hf : forall s s', FileScope.Elsewhere s s' -> (f s).Elsewhere (f' s')) :
    (sc.updateFile file f).Elsewhere (sc'.updateFile file f') :=
  { h with files := h.files.insert file (hf _ _ (h.fileScope file)) }

theorem types_get? (h : sc.Elsewhere sc') (name : String) :
    Option.Rel TypeDecl.Moved (sc.types.get? name) (sc'.types.get? name) :=
  h.types.get? name

theorem isConst (h : sc.Elsewhere sc') (name : String) : sc'.isConst name = sc.isConst name := by
  unfold Scope.isConst
  rw [Bool.eq_iff_iff, ← List.findIdx?_isSome, ← List.findIdx?_isSome,
    constIndex?_of_moved h.consts]

theorem alike (h : sc.Elsewhere sc') : Alike sc sc' where
  path := h.path
  types name := by
    have htypes := h.types_get? name
    revert htypes
    generalize sc.types.get? name = d, sc'.types.get? name = d'
    intro htypes
    cases htypes with
    | none => rfl
    | some hmoved =>
        rcases hmoved with ⟨f, _, rfl⟩
        rfl
  isConst := h.isConst
  others name := by rw [h.others]
  imports file label := by
    unfold import?
    rw [(h.fileScope file).imports]
  dots file := (h.fileScope file).dots

theorem moved (h : sc.Elsewhere sc') : sc.Moved sc' :=
  ⟨h.alike, h.types_get?, h.consts⟩

theorem claims (h : sc.Elsewhere sc') (name : String) : sc'.claims name = sc.claims name := by
  unfold Scope.claims
  rw [h.alike.contains, h.isConst, h.others]

theorem linkDepth (h : sc.Elsewhere sc') : sc'.linkDepth = sc.linkDepth := by
  unfold Scope.linkDepth Table.size
  rw [List.Forall₂.length_eq h.types, h.consts.length_eq]

end Elsewhere
end Scope

namespace Collection

structure Elsewhere (c c' : Collection) : Prop where
  scope : c.scope.Elsewhere c'.scope
  packages : c'.packages = c.packages
  errors : c'.errors.map TypeError.unplaced = c.errors.map TypeError.unplaced

namespace Elsewhere

variable {c c' : Collection}

theorem updateScope (h : c.Elsewhere c') {f f' : Scope -> Scope}
    (hf : forall sc sc', Scope.Elsewhere sc sc' -> (f sc).Elsewhere (f' sc')) :
    (c.updateScope f).Elsewhere (c'.updateScope f') :=
  ⟨hf _ _ h.scope, h.packages, h.errors⟩

theorem complain (h : c.Elsewhere c') (file : String) (line line' : Nat) (complaint : Complaint) :
    (c.complain file line complaint).Elsewhere (c'.complain file line' complaint) where
  scope := h.scope
  packages := h.packages
  errors := by
    unfold Collection.complain
    rw [List.map_append, List.map_append, h.errors]
    rfl

theorem learn (h : c.Elsewhere c') (answers : Answers) (file : String) (line line' : Nat)
    (path : String) :
    (c.learn answers file line path).Elsewhere (c'.learn answers file line' path) := by
  unfold Collection.learn
  rw [h.packages]
  split
  · exact h
  · refine ⟨h.scope, rfl, ?_⟩
    rw [List.map_append, List.map_append, h.errors]
    cases answers path with
    | ok p => rfl
    | error e => rfl

theorem bound (h : c.Elsewhere c') (answers : Answers) (file : String) (line line' : Nat)
    (path : String) :
    (c.bound answers file line path).Elsewhere (c'.bound answers file line' path) := by
  have hlist : forall sc sc', Scope.Elsewhere sc sc' ->
      Scope.Elsewhere { sc with importPaths := sc.importPaths ++ [path] }
        { sc' with importPaths := sc'.importPaths ++ [path] } :=
    fun _ _ hscope => { hscope with importPaths := congrArg (· ++ [path]) hscope.importPaths }
  unfold Collection.bound
  split
  · exact h.updateScope hlist
  · exact (h.learn answers file line line' path).updateScope hlist

theorem bindingOf (h : c.Elsewhere c') (answers : Answers) (path : String) :
    c'.bindingOf answers path = c.bindingOf answers path := by
  unfold Collection.bindingOf packageOf
  rw [h.packages]

theorem addNamed (h : c.Elsewhere c') (file label : String) (b : Binding) (line line' : Nat) :
    (c.addNamed file label b line).Elsewhere (c'.addNamed file label b line') := by
  refine h.updateScope fun _ _ hscope => hscope.updateFile file fun s s' hs => ?_
  refine ⟨⟨?_, hs.dots⟩, List.rel_append hs.named (.cons ⟨rfl, rfl⟩ .nil), hs.qualifiers⟩
  exact congrArg (fun t => t.insert label b) hs.imports

theorem addBinding (h : c.Elsewhere c') {f : Source.Extent -> Source.Extent}
    (hf : Source.KeepsText f) (file : String) (label : Option Source.ImportLabel) (b : Binding)
    (line line' : Nat) :
    (c.addBinding file label b line).Elsewhere
      (c'.addBinding file (label.map (Source.ImportLabel.relocate f)) b line') := by
  unfold Collection.addBinding
  cases label with
  | none => exact h.addNamed file (Collect.defaultLabel b) b line line'
  | some label =>
      cases label with
      | dot =>
          refine h.updateScope fun _ _ hscope => hscope.updateFile file fun s s' hs => ?_
          exact ⟨⟨hs.imports, congrArg (· ++ [b]) hs.dots⟩, hs.named, hs.qualifiers⟩
      | blank => exact h
      | named x =>
          show Elsewhere _ (c'.addNamed file (f x).text b line')
          rw [hf x]
          exact h.addNamed file x.text b line line'

theorem claim (h : c.Elsewhere c') (answers : Answers) (file : String) {x x' : Source.Extent}
    (hx : x'.text = x.text) {what what' : Claim}
    (hwhat : forall sc sc', Scope.Elsewhere sc sc' ->
      (addClaim file x.text what sc).Elsewhere (addClaim file x.text what' sc')) :
    ((Item.claim file x what).apply answers c).Elsewhere
      ((Item.claim file x' what').apply answers c') := by
  unfold Item.apply
  dsimp only
  rw [hx, h.scope.claims]
  split
  · exact h
  · split
    · exact h.complain file _ _ _
    · exact h.updateScope hwhat

theorem addClaim_const {f : Source.Extent -> Source.Extent} (hf : Source.KeepsText f)
    (file name : String) (spec spec' : Source.Extent) (type : Option Source.TypeExpr)
    (expr : Option Source.Expr) (iota : Nat) {sc sc' : Scope} (h : sc.Elsewhere sc') :
    (addClaim file name (.const spec type expr iota) sc).Elsewhere
      (addClaim file name (.const spec' (type.map (Source.TypeExpr.relocate f))
        (expr.map (Source.Expr.relocate f)) iota) sc') :=
  { h with consts := List.rel_append h.consts (.cons ⟨f, spec', hf, rfl⟩ .nil) }

theorem apply (h : c.Elsewhere c') (answers : Answers) {i i' : Item} (hi : i.Elsewhere i') :
    (i.apply answers c).Elsewhere (i'.apply answers c') := by
  cases hi with
  | opening file hqualifiers =>
      exact h.updateScope fun _ _ hscope => hscope.updateFile file fun _ _ _ =>
        FileScope.elsewhere_ofQualifiers hqualifiers
  | const hf file hx spec spec' type expr iota =>
      exact h.claim answers file hx fun _ _ hscope =>
        addClaim_const hf file _ spec spec' type expr iota hscope
  | moved hmoved hopening =>
      cases hmoved with
      | opening file qualifiers qualifiers' => exact absurd rfl (hopening file qualifiers)
      | binding hf file line line' label path =>
          simp only [Item.apply]
          rw [h.bindingOf]
          exact (h.bound answers file line line' path).addBinding hf file label _ line line'
      | fault file line line' complaint => exact h.complain file line line' complaint
      | @claim f hf file x what =>
          apply h.claim answers file (hf x)
          intro sc sc' hscope
          cases what with
          | type spec =>
              exact { hscope with types := hscope.types.insert x.text ⟨f, hf, rfl⟩ }
          | const spec type expr iota => exact addClaim_const hf file _ spec _ type expr iota hscope
          | other => exact { hscope with others := congrArg (· ++ [x.text]) hscope.others }
      | @method f hf m =>
          have hadd : forall sc sc', Scope.Elsewhere sc sc' ->
              Scope.Elsewhere { sc with methods := sc.methods ++ [m] }
                { sc' with methods := sc'.methods ++ [m.relocate f] } :=
            fun _ _ hscope =>
              { hscope with methods := List.rel_append hscope.methods (.cons ⟨f, hf, rfl⟩ .nil) }
          exact h.updateScope hadd

theorem applyAll (h : c.Elsewhere c') (answers : Answers) {items items' : List Item}
    (hitems : List.Forall₂ Item.Elsewhere items items') :
    (Item.applyAll answers items c).Elsewhere (Item.applyAll answers items' c') := by
  induction hitems generalizing c c' with
  | nil => exact h
  | cons hi _ ih => exact ih (h.apply answers hi)

end Elsewhere

theorem elsewhere_collect {p p' : LoadedPackage} (hpath : p'.importPath = p.importPath)
    (hitems : List.Forall₂ Item.Elsewhere p.items p'.items) (answers : Answers) :
    ((collect p).under answers).Elsewhere ((collect p').under answers) := by
  have hstart : (Collection.start p).Elsewhere (Collection.start p') :=
    ⟨⟨hpath, Table.alike_empty, rfl, Table.alike_empty, .nil, rfl, .nil⟩, rfl, rfl⟩
  rw [under_collect_eq, under_collect_eq]
  exact hstart.applyAll answers hitems

end Collection

/-!
# The second pass
-/

/-- States of the second pass that remember the same and have the same complaints. -/
structure Progress.Elsewhere (p q : Progress) : Prop where
  packages : p.packages = q.packages
  underlying : p.underlying = q.underlying
  aliases : p.aliases = q.aliases
  values : p.values = q.values
  errors : q.errors.map TypeError.unplaced = p.errors.map TypeError.unplaced

def Tracking.elsewhere (answers : Answers) : Tracking :=
  ⟨answers, answers, Progress.Elsewhere, fun _ => False, fun _ => False⟩

section Second

variable {answers : Answers}

theorem Tracking.lossless_elsewhere : (Tracking.elsewhere answers).Lossless :=
  ⟨fun _ h => h, fun _ h => h⟩

theorem Tracking.remembers_elsewhere : (Tracking.elsewhere answers).Remembers where
  aliases _ _ h := h.aliases
  underlying _ _ h := h.underlying
  values _ _ h := h.values
  recordAlias name type _ _ h :=
    { h with aliases := congrArg (fun t => t.insert name type) h.aliases }
  recordUnderlying name type _ _ h :=
    { h with underlying := congrArg (fun t => t.insert name type) h.underlying }
  recordValue i value _ _ h :=
    { h with values := congrArg (fun vs => vs ++ [(i, value)]) h.values }

theorem Tracking.lawful_elsewhere : (Tracking.elsewhere answers).Lawful where
  left_mono _ _ _ hlost := hlost
  right_mono _ _ _ hlost := hlost
  report file line line' isSoft complaint := by
    apply Tracks.of_related lossless_elsewhere
    intro p q h
    refine ⟨rfl, { h with errors := ?_ }⟩
    show (q.errors ++ _).map TypeError.unplaced = (p.errors ++ _).map TypeError.unplaced
    rw [List.map_append, List.map_append, h.errors]
    rfl
  packageAt path := by
    apply Tracks.of_related lossless_elsewhere
    intro p q h
    unfold Resolve.outcome
    cases hknown : p.packages.get? path with
    | some known =>
        rw [Resolve.run_packageAt_known hknown, Resolve.run_packageAt_known (h.packages ▸ hknown)]
        exact ⟨rfl, h⟩
    | none =>
        rw [Resolve.run_packageAt_new hknown, Resolve.run_packageAt_new (h.packages ▸ hknown)]
        have hinsert : p.packages.insert path (answers path).toOption =
            q.packages.insert path (answers path).toOption := by rw [h.packages]
        exact ⟨rfl, hinsert, h.underlying, h.aliases, h.values, h.errors⟩

def InStep {α β : Type} (answers : Answers) (R : α -> β -> Prop) (m : Resolve α) (n : Resolve β) :
    Prop :=
  forall p q, Progress.Elsewhere p q ->
    R (m.outcome answers p).1 (n.outcome answers q).1 ∧
      Progress.Elsewhere (m.outcome answers p).2 (n.outcome answers q).2

namespace InStep

variable {α α' β β' : Type} {R : α -> α' -> Prop} {S : β -> β' -> Prop}

theorem of_tracks {m n : Resolve α} (h : Tracks (.elsewhere answers) m n) :
    InStep answers Eq m n :=
  fun _ _ hpq => h.related Tracking.lossless_elsewhere hpq

theorem pure {a : α} {a' : α'} (h : R a a') : InStep answers R (Pure.pure a) (Pure.pure a') :=
  fun _ _ hpq => ⟨h, hpq⟩

theorem bind {m : Resolve α} {n : Resolve α'} {f : α -> Resolve β} {g : α' -> Resolve β'}
    (h : InStep answers R m n) (hf : forall a a', R a a' -> InStep answers S (f a) (g a')) :
    InStep answers S (m >>= f) (n >>= g) := by
  intro p q hpq
  rw [Resolve.outcome_bind, Resolve.outcome_bind]
  rcases h p q hpq with ⟨hresult, hend⟩
  exact hf _ _ hresult _ _ hend

theorem forM {f : α -> Resolve PUnit} {g : α' -> Resolve PUnit} {xs : List α} {ys : List α'}
    (hxs : List.Forall₂ R xs ys) (hf : forall a a', R a a' -> InStep answers Eq (f a) (g a')) :
    InStep answers Eq (xs.forM f) (ys.forM g) := by
  induction hxs with
  | nil => exact pure rfl
  | cons hR _ ih => exact (hf _ _ hR).bind fun _ _ _ => ih

theorem foldlM {f : β -> α -> Resolve β} {g : β' -> α' -> Resolve β'} {xs : List α}
    {ys : List α'} (hxs : List.Forall₂ R xs ys)
    (hf : forall b b' a a', S b b' -> R a a' -> InStep answers S (f b a) (g b' a')) {b : β}
    {b' : β'} (hb : S b b') : InStep answers S (xs.foldlM f b) (ys.foldlM g b') := by
  induction hxs generalizing b b' with
  | nil => exact pure hb
  | cons hR _ ih =>
      rw [List.foldlM_cons, List.foldlM_cons]
      exact (hf _ _ _ _ hb hR).bind fun _ _ hnext => ih hnext

theorem mapM {f : α -> Resolve β} {g : α' -> Resolve β'} {xs : List α} {ys : List α'}
    (hxs : List.Forall₂ R xs ys) (hf : forall a a', R a a' -> InStep answers S (f a) (g a')) :
    InStep answers (List.Forall₂ S) (xs.mapM f) (ys.mapM g) := by
  induction hxs with
  | nil => exact pure .nil
  | cons hR _ ih =>
      rw [List.mapM_cons, List.mapM_cons]
      exact (hf _ _ hR).bind fun _ _ hb => ih.bind fun _ _ hbs => pure (.cons hb hbs)

theorem complain (file : String) (line line' : Nat) (complaint : Complaint) :
    InStep answers Eq (Resolve.complain file line complaint)
      (Resolve.complain file line' complaint) :=
  of_tracks (Tracking.lawful_elsewhere.complain file line line' complaint)

end InStep

namespace Scope

variable {sc sc' : Scope}

theorem steps_links (h : sc.Elsewhere sc') :
    StepLinks (.elsewhere answers) sc sc.links sc'.links := by
  unfold links
  rw [h.linkDepth]
  exact steps_linksWithin Tracking.lawful_elsewhere Tracking.lossless_elsewhere
    Tracking.remembers_elsewhere h.moved sc.linkDepth []

/-!
# Methods
-/

def SameMethods (ms ms' : List Method) : Prop :=
  ms'.map Method.unplaced = ms.map Method.unplaced

theorem inStep_methodSignature (h : sc.Elsewhere sc') {f : Source.Extent -> Source.Extent}
    (hf : Source.KeepsText f) (file : String) (tparams : List String) (d : Source.MethodDecl) :
    InStep answers Eq (sc.methodSignature file tparams d)
      (sc'.methodSignature file tparams (d.relocate f)) := by
  have hlawful : (Tracking.elsewhere answers).Lawful := Tracking.lawful_elsewhere
  have hparams := tracks_paramTypes hlawful h.alike ((steps_links h).between h.moved) hf file
    tparams
  exact .of_tracks ((hparams _).bind fun _ => (hparams _).bind fun _ => Tracks.pure _)

theorem inStep_addToType {methods methods' : Table (List Method)}
    (h : methods.Alike SameMethods methods') (file : String) (line line' : Nat) (base : String)
    {m m' : Method} (hm : m'.unplaced = m.unplaced) :
    InStep answers (Table.Alike SameMethods) (addToType file line base m methods)
      (addToType file line' base m' methods') := by
  have hknown : ((methods'.get? base).getD []).map Method.unplaced =
      ((methods.get? base).getD []).map Method.unplaced := by
    have hbase := h.get? base
    revert hbase
    generalize methods.get? base = known, methods'.get? base = known'
    intro hbase
    cases hbase with
    | none => rfl
    | some hsame => exact hsame
  have hname : m'.name = m.name := by
    show m'.unplaced.name = m.unplaced.name
    rw [hm]
  have hany : forall (known : List Method) (name : String),
      (known.any fun n => n.name == name) =
        (known.map Method.unplaced).any fun n => n.name == name := by
    intro known name
    rw [List.any_map]
    rfl
  unfold addToType
  dsimp only
  rw [hany ((methods.get? base).getD []), hany ((methods'.get? base).getD []), hname, hknown]
  split
  · exact (InStep.complain _ _ _ _).bind fun _ _ _ => .pure h
  · refine .pure (h.insert base ?_)
    unfold SameMethods
    rw [List.map_append, List.map_append, hknown, List.map_singleton, List.map_singleton, hm]

theorem inStep_checkMethod (h : sc.Elsewhere sc') {methods methods' : Table (List Method)}
    (hmethods : methods.Alike SameMethods methods') {m m' : MethodSource} (hm : m.Moved m') :
    InStep answers (Table.Alike SameMethods) (sc.checkMethod methods m)
      (sc'.checkMethod methods' m') := by
  rcases hm with ⟨f, hf, rfl⟩
  have hreceiver : Source.receiverType? (m.relocate f).decl.receiver =
      (Source.receiverType? m.decl.receiver).map (Source.TypeExpr.relocate f) :=
    Source.receiverType?_relocate f m.decl.receiver
  have hblank : (m.relocate f).decl.name.text = m.decl.name.text := hf m.decl.name
  unfold checkMethod
  dsimp only
  rw [hreceiver]
  cases Source.receiverType? m.decl.receiver with
  | none => exact (InStep.complain _ _ _ _).bind fun _ _ _ => .pure hmethods
  | some type =>
      dsimp only [Option.map]
      rw [Source.Receiver.ofType_relocate hf, h.alike.isLocalType, hblank]
      split
      · exact (InStep.complain _ _ _ _).bind fun _ _ _ => .pure hmethods
      · split
        · exact .pure hmethods
        · refine (inStep_methodSignature h hf m.file _ m.decl).bind ?_
          rintro signature _ rfl
          exact inStep_addToType hmethods _ _ _ _ rfl

/-!
# Definitions
-/

theorem inStep_typeDef (h : sc.Elsewhere sc') {methods methods' : Table (List Method)}
    (hmethods : methods.Alike SameMethods methods') (name : String) {d d' : TypeDecl}
    (hd : d.Moved d') :
    InStep answers (fun t t' => t'.unplaced = t.unplaced) (sc.typeDef methods name d)
      (sc'.typeDef methods' name d') := by
  rcases hd with ⟨f, _, rfl⟩
  have halias : (d.relocate f).spec.isAlias = d.spec.isAlias := rfl
  have hlinks : StepLinks (.elsewhere answers) sc sc.links sc'.links := steps_links h
  unfold typeDef
  dsimp only
  rw [halias, h.path]
  split
  · refine (InStep.of_tracks (hlinks.aliased name)).bind ?_
    rintro type _ rfl
    exact .pure rfl
  · refine (InStep.of_tracks (hlinks.underlying name)).bind ?_
    rintro type _ rfl
    apply InStep.pure
    have hname := hmethods.get? name
    revert hname
    generalize methods.get? name = known, methods'.get? name = known'
    intro hname
    cases hname with
    | none => rfl
    | some hsame =>
        unfold TypeDef.unplaced
        dsimp only [Option.getD]
        rw [hsame]

theorem inStep_constDef (h : sc.Elsewhere sc') {i : Nat} {d d' : ConstDecl} (hd : d.Moved d')
    (hi : sc.consts[i]? = some d) :
    InStep answers (fun c c' => c'.map ConstDef.unplaced = c.map ConstDef.unplaced)
      (sc.constDef? i d) (sc'.constDef? i d') := by
  rcases hd with ⟨f, spec, _, rfl⟩
  unfold constDef?
  refine (InStep.of_tracks ((steps_links h).const i d hi)).bind ?_
  rintro value _ rfl
  cases value with
  | none => exact .pure rfl
  | some value => exact .pure rfl

theorem inStep_checkImports (h : sc.Elsewhere sc') :
    InStep answers Eq sc.checkImports sc'.checkImports := by
  refine InStep.forM h.files ?_
  rintro ⟨file, s⟩ ⟨file', s'⟩ ⟨hfile, hs⟩
  cases hfile
  refine InStep.forM hs.named ?_
  rintro ⟨label, path, line⟩ ⟨label', path', line'⟩ ⟨hlabel, hpath⟩
  dsimp only at hlabel hpath
  subst hlabel hpath
  have hused : s'.qualifiers.contains label' = s.qualifiers.contains label' := by
    rw [Bool.eq_iff_iff, List.contains_iff_mem, List.contains_iff_mem]
    exact hs.qualifiers label'
  unfold checkImport
  dsimp only
  rw [hused]
  split
  · exact .pure rfl
  · exact .of_tracks (Tracking.lawful_elsewhere.report _ _ _ _ _)

theorem inStep_definitions (h : sc.Elsewhere sc') (name : String) :
    InStep answers (fun p p' => p'.unplaced = p.unplaced) (sc.definitions name)
      (sc'.definitions name) := by
  have hlist : sc'.importList = sc.importList := by
    unfold importList
    rw [h.importPaths]
  refine (InStep.foldlM (S := Table.Alike SameMethods) h.methods
    (fun _ _ _ _ hmethods hm => inStep_checkMethod h hmethods hm) Table.alike_empty).bind ?_
  intro methods methods' hmethods
  refine (InStep.mapM (S := fun t t' => t'.unplaced = t.unplaced) h.types ?_).bind ?_
  · rintro ⟨name, d⟩ ⟨name', d'⟩ ⟨hname, hd⟩
    cases hname
    exact inStep_typeDef h hmethods name hd
  · intro types types' htypes
    have hnumbered := (List.forall₂_and_left _ _).mpr
      ⟨fun _ he => List.mem_zipIdx_iff_getElem?.mp he, forall₂_zipIdx h.consts 0⟩
    refine (InStep.mapM (S := fun c c' => c'.map ConstDef.unplaced = c.map ConstDef.unplaced)
      hnumbered ?_).bind ?_
    · rintro ⟨d, i⟩ ⟨d', i'⟩ ⟨hget, hi, hd⟩
      cases hi
      exact inStep_constDef h hd hget
    · intro consts consts' hconsts
      have hsame : consts'.map (Option.map ConstDef.unplaced) =
          consts.map (Option.map ConstDef.unplaced) :=
        map_eq_map_of_forall₂ (fun _ _ heq => heq) hconsts
      have hfound : forall found : List (Option ConstDef),
          (found.filterMap id).map ConstDef.unplaced =
            (found.map (Option.map ConstDef.unplaced)).filterMap id := by
        intro found
        rw [List.map_filterMap, List.filterMap_map]
        rfl
      refine (inStep_checkImports h).bind fun _ _ _ => .pure ?_
      unfold CheckedPackage.unplaced
      dsimp only
      rw [hlist, map_eq_map_of_forall₂ (fun _ _ heq => heq) htypes, hfound, hfound, hsame]

end Scope
end Second

/-- Sources that stand elsewhere are checked with the same outcome, places aside. -/
theorem under_checkGo_elsewhere {p p' : LoadedPackage} (hpath : p'.importPath = p.importPath)
    (hname : p'.name = p.name) (hitems : List.Forall₂ Item.Elsewhere p.items p'.items)
    (answers : Answers) :
    ((checkGo p').under answers).unplaced = ((checkGo p).under answers).unplaced := by
  have hfirst := Collection.elsewhere_collect hpath hitems answers
  have hstart : Progress.Elsewhere ((collect p).under answers).progress
      ((collect p').under answers).progress :=
    ⟨hfirst.packages.symm, rfl, rfl, rfl, hfirst.errors⟩
  rcases Scope.inStep_definitions hfirst.scope p.name _ _ hstart with ⟨hpackage, hend⟩
  rw [under_checkGo, under_checkGo]
  unfold definedUnder CheckOutcome.unplaced
  rw [hname]
  exact congrArg₂ CheckOutcome.mk hpackage hend.errors

end GoAtlas
