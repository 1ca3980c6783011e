import GoAtlas.Proofs.Check.Scope

/-!
# Names in types

The second pass of a check works out what names stand for.  A type that it comes by is fine if
every declared name in it is a type of the package itself or known to the session, and if the
invalid kind comes with a hard complaint or the session has an excuse for it.
-/

namespace GoAtlas

theorem BasicKind.ne_invalid_of_ofIdent? {name : String} {kind : BasicKind}
    (h : ofIdent? name = some kind) : kind ≠ invalid := by
  intro heq
  subst heq
  unfold ofIdent? at h
  split at h <;> cases h

theorem within_predeclared {invalid : Prop} {known : String -> String -> Prop} {name : String}
    {type : GoType} (h : predeclared? name = some type) : type.Within invalid known := by
  unfold predeclared? at h
  split at h
  · next kind hkind =>
      cases h
      exact GoType.within_basic (BasicKind.ne_invalid_of_ofIdent? hkind)
  · split at h
    · cases h
      exact GoType.within_builtin _
    · cases h
      exact GoType.within_emptyInterface
    · cases h
      exact GoType.within_builtin _
    · cases h

namespace Scope

def Declares (sc : Scope) (package name : String) : Prop :=
  package = sc.path ∧ exists d, sc.types.get? name = some d ∧ d.spec.isAlias = false

def Fine (sc : Scope) (w : Place Progress) (type : GoType) : Prop :=
  type.Within (Complained w.1.errors ∨ w.2.Excused)
    fun package name => sc.Declares package name ∨ w.2.Knows package name

def Shaped (sc : Scope) (w : Place Progress) (type : GoType) : Prop :=
  sc.Fine w type ∧ type.name? = none

structure Invariant (sc : Scope) (w : Place Progress) : Prop where
  session : w.2.Checking sc.path
  packages : forall q answer, w.1.packages.get? q = some answer ->
    Answered (Complained w.1.errors) w.2 q answer
  bindings : sc.Bound (Complained w.1.errors) w.2
  aliases : forall name type, w.1.aliases.get? name = some type -> sc.Fine w type
  underlying : forall name type, w.1.underlying.get? name = some type -> sc.Shaped w type
  values : forall i value, w.1.values.lookup i = some (some value) -> sc.Fine w value.2

def course (sc : Scope) (importer : Session.LocalImporter) : Course Progress :=
  Course.ofPass importer (fun p => p.errors) sc.Invariant fun q t =>
    exists p, t.cache.get? q = some (.resolved p)

variable {sc : Scope} {importer : Session.LocalImporter} {w v : Place Progress}

theorem Fine.leads {type : GoType} (h : sc.Fine w type) (hleads : (sc.course importer).Leads w v) :
    sc.Fine v type :=
  GoType.Within.mono (Or.imp hleads.2 fun hexcused => hexcused.retains hleads.1.retains)
    (fun _ _ => Or.imp_right fun hknows => hknows.retains hleads.1.retains) h

theorem Shaped.leads {type : GoType} (h : sc.Shaped w type)
    (hleads : (sc.course importer).Leads w v) : sc.Shaped v type :=
  ⟨h.1.leads hleads, h.2⟩

theorem fine_of_within {type : GoType} (h : type.Within w.2.Excused w.2.Knows) :
    sc.Fine w type :=
  GoType.Within.mono Or.inr (fun _ _ => Or.inr) h

theorem fine_invalid (h : Complained w.1.errors) : sc.Fine w .invalid :=
  GoType.within_invalid_iff.mpr (Or.inl h)

theorem shaped_invalid (h : Complained w.1.errors ∨ w.2.Excused) : sc.Shaped w .invalid :=
  ⟨GoType.within_invalid_iff.mpr h, rfl⟩

theorem Invariant.leads (h : sc.Invariant w) (hsession : v.2.Checking sc.path)
    (hleads : (sc.course importer).Leads w v) (hpackages : v.1.packages = w.1.packages)
    (haliases : v.1.aliases = w.1.aliases) (hunderlying : v.1.underlying = w.1.underlying)
    (hvalues : v.1.values = w.1.values) : sc.Invariant v where
  session := hsession
  packages q answer hq := (h.packages q answer (hpackages ▸ hq)).mono hleads.2 hleads.1
  bindings := h.bindings.mono hleads.2 hleads.1
  aliases name type htype := (h.aliases name type (haliases ▸ htype)).leads hleads
  underlying name type htype := (h.underlying name type (hunderlying ▸ htype)).leads hleads
  values i value hvalue := (h.values i value (hvalues ▸ hvalue)).leads hleads

/-!
# Complaints and packages
-/

theorem yields_report (file : String) (line : Nat) (isSoft : Bool) (complaint : Complaint) :
    Yields (sc.course importer) (Resolve.report file line isSoft complaint) w
      fun _ v => isSoft = false -> Complained v.1.errors := by
  have hleads : (sc.course importer).Leads w
      ({ w.1 with errors := w.1.errors ++ [⟨complaint, isSoft, some file, some line⟩] }, w.2) :=
    ⟨Session.Grows.refl _, fun h => h.append _⟩
  refine Yields.modify ?_ hleads ?_
  · intro h
    exact Invariant.leads h h.session hleads rfl rfl rfl rfl
  · intro hhard
    exact ⟨_, List.mem_append_right _ List.mem_cons_self, hhard⟩

theorem yields_complain (file : String) (line : Nat) (complaint : Complaint) :
    Yields (sc.course importer) (Resolve.complain file line complaint) w
      fun _ v => Complained v.1.errors :=
  (yields_report file line false complaint).mono fun _ _ _ _ h => h rfl

theorem yields_invalid (file : String) (line : Nat) (complaint : Complaint) :
    Yields (sc.course importer) (Resolve.invalid file line complaint) w
      fun type v => sc.Shaped v type := by
  unfold Resolve.invalid
  apply (yields_complain file line complaint).bind
  intro _ v _ hcomplained
  exact Yields.pure (shaped_invalid (Or.inl hcomplained))

theorem yields_fineInvalid (file : String) (line : Nat) (complaint : Complaint) :
    Yields (sc.course importer) (Resolve.invalid file line complaint) w
      fun type v => sc.Fine v type :=
  (yields_invalid file line complaint).mono fun _ _ _ _ h => h.1

theorem yields_request (himporter : Session.Answering importer) {q : String} {p : Package}
    (hp : w.2.cache.get? q = some (.resolved p)) :
    Yields (sc.course importer) (StateT.lift (Inquiry.request q)) w
      fun answer v => answer = .ok p ∧ v.2.cache.get? q = some (.resolved p) := by
  have hgrows := himporter.grows q w.2
  have hleads : (sc.course importer).Leads w (w.1, (importer q w.2).2) := ⟨hgrows, fun h => h⟩
  refine Yields.request ⟨p, hp⟩ ?_
  intro h
  refine ⟨?_, hleads, himporter.known q w.2 p hp, hgrows.cached hp⟩
  exact Invariant.leads h (h.session.request himporter q) hleads rfl rfl rfl rfl

theorem yields_remember {q : String} {p : Package}
    (hp : w.2.cache.get? q = some (.resolved p)) :
    Yields (sc.course importer)
      (modify fun r => { r with packages := r.packages.insert q (some p) }) w
      fun _ _ => True := by
  refine Yields.modify ?_ ⟨Session.Grows.refl _, fun h => h⟩ trivial
  intro h
  have hanswer : Answered (Complained w.1.errors) w.2 q (some p) := hp
  have hpackages := Table.forall_get?_insert h.packages hanswer
  exact ⟨h.session, hpackages, h.bindings, h.aliases, h.underlying, h.values⟩

theorem yields_packageAt (himporter : Session.Answering importer) {q : String} {p : Package}
    (hp : w.2.cache.get? q = some (.resolved p)) :
    Yields (sc.course importer) (Resolve.packageAt q) w
      fun answer v => answer = some p ∨ (answer = none ∧ Complained v.1.errors) := by
  unfold Resolve.packageAt
  refine Yields.of_holds fun hw => Yields.get_bind ?_
  cases hknown : w.1.packages.get? q with
  | some answer =>
      apply Yields.pure
      have hanswer := hw.packages q answer hknown
      cases answer with
      | none => exact Or.inr ⟨rfl, hanswer⟩
      | some p' =>
          cases Option.some.inj (hanswer.symm.trans hp)
          exact Or.inl rfl
  | none =>
      apply (yields_request himporter hp).bind
      rintro answer v _ ⟨rfl, hv⟩
      dsimp only
      rw [pure_bind]
      apply (yields_remember hv).bind
      intro _ u _ _
      exact Yields.pure (Or.inl rfl)

/-!
# The structure behind a name
-/

structure Follows (sc : Scope) (importer : Session.LocalImporter) (links : Links) : Prop where
  aliased : forall name d w, sc.types.get? name = some d ->
    Yields (sc.course importer) (links.aliased name) w fun type v => sc.Fine v type
  underlying : forall name d w, sc.types.get? name = some d ->
    Yields (sc.course importer) (links.underlying name) w fun type v => sc.Shaped v type
  const : forall i w, Yields (sc.course importer) (links.const i) w
    fun value v => forall x, value = some x -> sc.Fine v x.2

theorem not_knows_self (h : w.2.Checking sc.path) {name : String} :
    ¬ w.2.Knows sc.path name := by
  rintro ⟨p, hp, _⟩
  cases h.new.symm.trans hp

/-- A name of another package leads to its structure at once: aliases are never left in types. -/
theorem yields_foreign (himporter : Session.Answering importer) {links : Links} {fuel : Nat}
    {package name : String} (hknows : w.2.Knows package name) :
    Yields (sc.course importer) (do
      match ← Resolve.packageAt package with
      | none => return .invalid
      | some p =>
          match p.type? name with
          | none => return .invalid
          | some d =>
              if d.isAlias then sc.underlyingWithin links fuel d.underlying
              else return d.underlying) w fun type v => sc.Shaped v type := by
  rcases hknows with ⟨p, hp, hname⟩
  apply (yields_packageAt himporter hp).bind
  intro answer v hwv hanswer
  have hp' := hwv.1.cached hp
  rcases hanswer with rfl | ⟨rfl, hcomplained⟩
  · refine Yields.of_holds fun hv => ?_
    have hclosed := hv.session.sound.packages package p hp'
    dsimp only
    rcases hname with htrusted | ⟨d, hd, halias⟩
    · rw [(hclosed.trusted htrusted).2 name]
      exact Yields.pure (shaped_invalid (Or.inr (Or.inr ⟨package, p, hp', htrusted⟩)))
    · rw [hd]
      dsimp only
      rw [halias]
      refine Yields.pure ⟨fine_of_within ?_, hclosed.shapes name d hd halias⟩
      exact (GoType.within_def_iff.mp (hclosed.types name d hd)).1
  · exact Yields.pure (shaped_invalid (Or.inl hcomplained))

theorem yields_underlying (himporter : Session.Answering importer) {links : Links}
    (hlinks : sc.Follows importer links) {type : GoType} (htype : sc.Fine w type) :
    Yields (sc.course importer) (sc.underlying links type) w fun type v => sc.Shaped v type := by
  unfold underlying chainLimit
  cases type with
  | named n =>
      cases n with
      | declared package name =>
          unfold underlyingWithin
          refine Yields.of_holds fun hw => ?_
          rcases GoType.within_declared_iff.mp htype with ⟨hpackage, d, hd, _⟩ | hknows
          · rw [if_pos (beq_iff_eq.mpr hpackage)]
            exact hlinks.underlying name d w hd
          · have hne : ¬ (package == sc.path) = true := by
              intro heq
              exact not_knows_self hw.session (beq_iff_eq.mp heq ▸ hknows)
            rw [if_neg hne]
            exact yields_foreign himporter hknows
      | builtin name =>
          unfold underlyingWithin
          split
          · exact Yields.pure ⟨GoType.within_errorInterface, rfl⟩
          · exact Yields.pure ⟨GoType.within_emptyInterface, rfl⟩
  | _ => exact Yields.pure ⟨htype, rfl⟩

/-!
# What is found through imports
-/

section Imports

variable {file label name : String}

theorem exists_of_dotType {type : GoType} (h : sc.dotType? file name = some type) :
    isExported name = true ∧ exists b package d, b ∈ (sc.fileScope file).dots ∧
      b.package = some package ∧ package.type? name = some d ∧ d.asType = type := by
  unfold dotType? at h
  split at h
  · next hexported =>
      obtain ⟨b, hb, hfound⟩ := List.exists_of_findSome?_eq_some h
      obtain ⟨package, hpackage, hfound⟩ := Option.bind_eq_some_iff.mp hfound
      split at hfound
      · cases hfound
      · obtain ⟨d, hd, htype⟩ := Option.map_eq_some_iff.mp hfound
        exact ⟨hexported, b, package, d, hb, hpackage, hd, htype⟩
  · cases h

theorem exists_of_dotConst {x : Valued} (h : sc.dotConst? file name = some x) :
    exists b package c, b ∈ (sc.fileScope file).dots ∧ b.package = some package ∧
      package.constant? name = some c ∧ (c.value, c.type) = x := by
  obtain ⟨b, hb, hfound⟩ := List.exists_of_findSome?_eq_some h
  obtain ⟨package, hpackage, hfound⟩ := Option.bind_eq_some_iff.mp hfound
  obtain ⟨c, hc, hx⟩ := Option.map_eq_some_iff.mp hfound
  exact ⟨b, package, c, hb, hpackage, hc, hx⟩

theorem exists_of_qualifiedConst {x : Valued} (h : sc.qualifiedConst file label name = .ok x) :
    exists b package c, sc.import? file label = some b ∧ b.package = some package ∧
      package.constant? name = some c ∧ (c.value, c.type) = x := by
  unfold qualifiedConst at h
  split at h
  · cases h
  · next b hb =>
      split at h
      · cases h
      · next package hpackage =>
          split at h
          · cases h
          · split at h
            · next c hc => exact ⟨b, package, c, hb, hpackage, hc, Except.ok.inj h⟩
            · cases h

/-- The type is taken on trust, or it is that of a definition. -/
theorem exists_of_qualifiedTarget {type : GoType}
    (h : sc.qualifiedTarget? file label name = some type) :
    exists b package, sc.import? file label = some b ∧ b.package = some package ∧
      ((package.isOpaque = true ∧ isExported name = true ∧
          .named (.declared package.path name) = type) ∨
        exists d, package.type? name = some d ∧ d.asType = type) := by
  obtain ⟨b, hb, hfound⟩ := Option.bind_eq_some_iff.mp h
  obtain ⟨package, hpackage, hfound⟩ := Option.bind_eq_some_iff.mp hfound
  refine ⟨b, package, hb, hpackage, ?_⟩
  split at hfound
  · next hsealed =>
      split at hfound
      · next hexported => exact Or.inl ⟨hsealed, hexported, Option.some.inj hfound⟩
      · cases hfound
  · exact Or.inr (Option.map_eq_some_iff.mp hfound)

end Imports

/-!
# What names stand for
-/

theorem fine_predeclared {name : String} {type : GoType} (h : predeclared? name = some type) :
    sc.Fine w type :=
  within_predeclared h

theorem Invariant.closed_binding (h : sc.Invariant w) {file : String} {b : Binding}
    (hb : (exists label, sc.import? file label = some b) ∨ b ∈ (sc.fileScope file).dots)
    {p : Package} (hp : b.package = some p) :
    w.2.cache.get? b.path = some (.resolved p) ∧ w.2.Closed b.path p := by
  have hkept := h.bindings file b hb
  unfold Binding.Kept at hkept
  rw [hp] at hkept
  exact ⟨hkept, h.session.sound.packages b.path p hkept⟩

theorem Invariant.fine_dotType (h : sc.Invariant w) {file name : String} {type : GoType}
    (htype : sc.dotType? file name = some type) : sc.Fine w type := by
  rcases exists_of_dotType htype with ⟨_, b, p, d, hb, hp, hd, rfl⟩
  rcases h.closed_binding (Or.inr hb) hp with ⟨hcached, hclosed⟩
  exact fine_of_within (hclosed.asType hcached hd)

theorem fine_trusted {path name : String} {p : Package} (hclosed : w.2.Closed path p)
    (hp : w.2.cache.get? path = some (.resolved p)) (htrusted : p.isOpaque = true) :
    sc.Fine w (.named (.declared p.path name)) := by
  rw [hclosed.home]
  exact GoType.within_declared_iff.mpr (Or.inr ⟨p, hp, Or.inl htrusted⟩)

theorem yields_qualifiedType (file : String) (label name : Source.Extent) :
    Yields (sc.course importer) (sc.qualifiedType file label name) w
      fun type v => sc.Fine v type := by
  refine Yields.of_holds fun hw => ?_
  unfold qualifiedType
  split
  · exact yields_fineInvalid _ _ _
  · next b hb =>
      split
      · split
        · exact Yields.pure (GoType.within_basic (by decide))
        · exact yields_fineInvalid _ _ _
      · next hunsafe =>
          have hkept := hw.bindings file b (Or.inl ⟨label.text, hb⟩)
          split
          · next hnone =>
              unfold Binding.Kept at hkept
              rw [hnone] at hkept
              rcases hkept with htrue | hcomplained
              · exact absurd htrue hunsafe
              · exact Yields.pure (fine_invalid hcomplained)
          · next p hp =>
              rcases hw.closed_binding (Or.inl ⟨label.text, hb⟩) hp with ⟨hcached, hclosed⟩
              split
              · exact yields_fineInvalid _ _ _
              · split
                · next htrusted => exact Yields.pure (fine_trusted hclosed hcached htrusted)
                · split
                  · next d hd => exact Yields.pure (fine_of_within (hclosed.asType hcached hd))
                  · exact yields_fineInvalid _ _ _

theorem Invariant.fine_qualifiedTarget (h : sc.Invariant w) {file label name : String}
    {type : GoType} (htype : sc.qualifiedTarget? file label name = some type) :
    sc.Fine w type := by
  rcases exists_of_qualifiedTarget htype with ⟨b, p, hb, hp, hfound⟩
  rcases h.closed_binding (Or.inl ⟨label, hb⟩) hp with ⟨hcached, hclosed⟩
  rcases hfound with ⟨htrusted, _, rfl⟩ | ⟨d, hd, rfl⟩
  · exact fine_trusted hclosed hcached htrusted
  · exact fine_of_within (hclosed.asType hcached hd)

theorem Invariant.fine_dotConst (h : sc.Invariant w) {file name : String} {x : Valued}
    (hx : sc.dotConst? file name = some x) : sc.Fine w x.2 := by
  rcases exists_of_dotConst hx with ⟨b, p, c, hb, hp, hc, rfl⟩
  rcases h.closed_binding (Or.inr hb) hp with ⟨_, hclosed⟩
  exact fine_of_within (hclosed.consts c (List.mem_of_find?_eq_some hc))

theorem Invariant.fine_qualifiedConst (h : sc.Invariant w) {file label name : String}
    {x : Valued} (hx : sc.qualifiedConst file label name = .ok x) : sc.Fine w x.2 := by
  rcases exists_of_qualifiedConst hx with ⟨b, p, c, hb, hp, hc, rfl⟩
  rcases h.closed_binding (Or.inl ⟨label, hb⟩) hp with ⟨_, hclosed⟩
  exact fine_of_within (hclosed.consts c (List.mem_of_find?_eq_some hc))

theorem yields_namedType {links : Links} (hlinks : sc.Follows importer links) (file : String)
    (tparams : List String) (x : Source.Extent) :
    Yields (sc.course importer) (sc.namedType links file tparams x) w
      fun type v => sc.Fine v type := by
  refine Yields.of_holds fun hw => ?_
  unfold namedType
  dsimp only
  split
  · exact Yields.pure (GoType.within_builtin _)
  · split
    · next d hd =>
        split
        · exact hlinks.aliased _ d w hd
        · next halias =>
            refine Yields.pure (GoType.within_declared_iff.mpr (Or.inl ⟨rfl, d, hd, ?_⟩))
            exact eq_false_of_ne_true halias
    · split
      · exact yields_fineInvalid _ _ _
      · split
        · next type htype => exact Yields.pure (fine_predeclared htype)
        · split
          · next type htype => exact Yields.pure (hw.fine_dotType htype)
          · exact yields_fineInvalid _ _ _

end Scope
end GoAtlas
