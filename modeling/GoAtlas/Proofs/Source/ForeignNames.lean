import GoAtlas.Proofs.Source.Names

/-!
# Names of foreign types

In a type that was read from a file, what stands behind a qualifier is an identifier.  The
readers of types contain one another, so this is shown for all of them at once, one level of
nesting after another.
-/

namespace GoAtlas
namespace Source

def Param.type : Param -> TypeExpr
  | .plain _ type => type
  | .variadic _ type => type

def FieldDecl.type : FieldDecl -> TypeExpr
  | .named _ _ type _ => type
  | .embedded _ _ type _ => type

/-- The names behind qualifiers have no dot.  Lengths of arrays and type arguments are left
out, since no type is made of them. -/
inductive PlainNames : TypeExpr -> Prop
  | name (x : Extent) : PlainNames (.name x)
  | qualified {x package name : Extent} (h : Plain name.text) :
      PlainNames (.qualified x package name)
  | generic {x : Extent} {base : TypeExpr} {arguments : List TypeExpr} (h : PlainNames base) :
      PlainNames (.generic x base arguments)
  | paren {x : Extent} {inner : TypeExpr} (h : PlainNames inner) : PlainNames (.paren x inner)
  | negated {x : Extent} {inner : TypeExpr} (h : PlainNames inner) : PlainNames (.negated x inner)
  | pointer {x : Extent} {elem : TypeExpr} (h : PlainNames elem) : PlainNames (.pointer x elem)
  | slice {x : Extent} {elem : TypeExpr} (h : PlainNames elem) : PlainNames (.slice x elem)
  | array {x : Extent} {len : Expr} {elem : TypeExpr} (h : PlainNames elem) :
      PlainNames (.array x len elem)
  | map {x : Extent} {key value : TypeExpr} (hkey : PlainNames key) (hvalue : PlainNames value) :
      PlainNames (.map x key value)
  | chan {x : Extent} {dir : Direction} {elem : TypeExpr} (h : PlainNames elem) :
      PlainNames (.chan x dir elem)
  | func {x : Extent} {params results : List Param}
      (hparams : forall p, p ∈ params -> PlainNames p.type)
      (hresults : forall p, p ∈ results -> PlainNames p.type) :
      PlainNames (.func x params results)
  | struct {x : Extent} {fields : List FieldDecl}
      (h : forall f, f ∈ fields -> PlainNames f.type) : PlainNames (.struct x fields)
  | interface {x : Extent} {elems : List InterfaceElem}
      (hparams : forall y name params results, .method y name params results ∈ elems ->
        forall p, p ∈ params -> PlainNames p.type)
      (hresults : forall y name params results, .method y name params results ∈ elems ->
        forall p, p ∈ results -> PlainNames p.type)
      (hterms : forall terms, .union terms ∈ elems -> forall t, t ∈ terms -> PlainNames t) :
      PlainNames (.interface x elems)

inductive PlainElem : InterfaceElem -> Prop
  | method {x name : Extent} {params results : List Param}
      (hparams : forall p, p ∈ params -> PlainNames p.type)
      (hresults : forall p, p ∈ results -> PlainNames p.type) :
      PlainElem (.method x name params results)
  | union {terms : List TypeExpr} (h : forall t, t ∈ terms -> PlainNames t) :
      PlainElem (.union terms)

theorem PlainNames.of_elems {x : Extent} {elems : List InterfaceElem}
    (h : forall e, e ∈ elems -> PlainElem e) : PlainNames (.interface x elems) := by
  apply PlainNames.interface
  · intro y name params results hmem
    cases h _ hmem with
    | method hparams _ => exact hparams
  · intro y name params results hmem
    cases h _ hmem with
    | method _ hresults => exact hresults
  · intro terms hmem
    cases h _ hmem with
    | union hterms => exact hterms

theorem PlainNames.elems {x : Extent} {elems : List InterfaceElem}
    (h : PlainNames (.interface x elems)) : forall e, e ∈ elems -> PlainElem e := by
  cases h with
  | interface hparams hresults hterms =>
      intro e he
      cases e with
      | method y name params results =>
          exact .method (hparams y name params results he) (hresults y name params results he)
      | union terms => exact .union (hterms terms he)

namespace Parse.Gives

variable {α : Type} {P : α -> Prop}

theorem fail : Gives P Parse.fail := by
  intro c a c' hrun
  cases hrun

theorem nothing : Gives (fun r => forall a, r = some a -> P a) (Pure.pure none) :=
  pure fun _ h => by cases h

theorem just {p : Parse α} (hp : Gives P p) :
    Gives (fun r => forall a, r = some a -> P a) (do return some (← p)) := by
  refine hp.bind ?_
  intro a ha
  refine pure ?_
  rintro b ⟨⟩
  exact ha

theorem onward {p : Parse (Option α)} (hp : Gives (fun r => forall a, r = some a -> P a) p)
    (ending : Bool) : Gives (fun r => forall a, r = some a -> P a) (Parse.onward ending p) := by
  refine after fun before => after fun _ => hp.bind ?_
  intro r hr
  cases r with
  | none => exact after fun _ => nothing
  | some a => exact pure hr

theorem separated {item : Parse α} (hitem : Gives P item) (close : String) :
    Gives (fun as => forall a, a ∈ as -> P a) (Parse.separated close item) := by
  refine after fun closed => ?_
  split
  · exact pure (List.forall_mem_nil _)
  · refine hitem.bind ?_
    intro first hfirst
    refine (many (P := P) ?_).bind fun more hmore =>
      pure (List.forall_mem_cons.mpr ⟨hfirst, hmore⟩)
    refine after fun closed => ?_
    split
    · exact nothing
    · refine after fun _ => after fun closed => ?_
      split
      · exact nothing
      · exact hitem.just

theorem commaListTo {item : Parse α} (hitem : Gives P item) (close : String) :
    Gives (fun as => forall a, a ∈ as -> P a) (Parse.commaListTo close item) := by
  refine after fun closed => ?_
  split
  · exact pure (List.forall_mem_nil _)
  · refine after fun comma => ?_
    split
    · exact after fun _ => pure (List.forall_mem_nil _)
    · refine hitem.bind ?_
      intro first hfirst
      refine (many (P := P) ?_).bind fun more hmore =>
        pure (List.forall_mem_cons.mpr ⟨hfirst, hmore⟩)
      refine after fun closed => ?_
      split
      · exact nothing
      · refine after fun _ => after fun closed => ?_
        split
        · exact nothing
        · exact hitem.just

end Parse.Gives

namespace Grammar

open Parse

/-- The types that a grammar reads have plain names only. -/
structure Tidy (g : Grammar) : Prop where
  type (ending : Bool) : Gives PlainNames (g.type ending)
  bareType (ending : Bool) : Gives PlainNames (g.bareType ending)

variable {g : Grammar}

/-! # Parameters -/

def Entry.type : Entry -> TypeExpr
  | typed _ type => type
  | bare type => type
  | variadic _ type => type

theorem plain_asTypes (names : List Extent) :
    forall p, p ∈ asTypes names -> PlainNames p.type := by
  intro p hp
  obtain ⟨x, -, rfl⟩ := List.mem_map.mp hp
  exact .name x

theorem plain_sortEntries {waiting : List Extent} {entries : List Entry}
    (h : forall e, e ∈ entries -> PlainNames e.type) :
    forall p, p ∈ sortEntries waiting entries -> PlainNames p.type := by
  fun_induction sortEntries waiting entries with
  | case1 waiting => exact plain_asTypes waiting
  | case2 waiting x rest ih => exact ih (List.forall_mem_cons.mp h).2
  | case3 waiting name type rest ih =>
      obtain ⟨hfirst, hrest⟩ := List.forall_mem_cons.mp h
      exact List.forall_mem_cons.mpr ⟨hfirst, ih hrest⟩
  | case4 waiting type rest _ ih =>
      obtain ⟨hfirst, hrest⟩ := List.forall_mem_cons.mp h
      exact List.forall_mem_append.mpr
        ⟨plain_asTypes waiting, List.forall_mem_cons.mpr ⟨hfirst, ih hrest⟩⟩
  | case5 waiting name type rest ih =>
      obtain ⟨hfirst, hrest⟩ := List.forall_mem_cons.mp h
      exact List.forall_mem_append.mpr
        ⟨plain_asTypes waiting, List.forall_mem_cons.mpr ⟨hfirst, ih hrest⟩⟩

theorem gives_entry (hg : g.Tidy) : Gives (fun e => PlainNames e.type) (entry g) := by
  refine Gives.either ?_ (Gives.either ?_ ?_)
  · refine Gives.after fun found => ?_
    split
    · exact (hg.type false).bind fun type htype => Gives.pure htype
    · exact Gives.after fun _ => Gives.after fun _ =>
        (hg.type false).bind fun type htype => Gives.pure htype
  · refine Gives.after fun name => ?_
    split
    · exact Gives.fail
    · exact (hg.type false).bind fun type htype => Gives.pure htype
  · exact (hg.type false).bind fun type htype => Gives.pure htype

theorem gives_parameters (hg : g.Tidy) :
    Gives (fun ps => forall p, p ∈ ps -> PlainNames p.type) (parameters g) :=
  Gives.after fun _ => ((gives_entry hg).commaListTo ")").bind fun _ hentries =>
    Gives.pure (plain_sortEntries hentries)

theorem gives_results (hg : g.Tidy) (ending : Bool) :
    Gives (fun ps => forall p, p ∈ ps -> PlainNames p.type) (results g ending) := by
  refine Gives.bind (Gives.onward
    (P := fun ps => forall p, p ∈ ps -> PlainNames p.type) ?_ ending) ?_
  · refine Gives.after fun found => ?_
    split
    · exact (gives_parameters hg).just
    · refine Gives.after fun found => ?_
      split
      · refine (hg.bareType ending).bind fun type htype => Gives.pure ?_
        rintro ps ⟨⟩
        exact List.forall_mem_singleton.mpr htype
      · exact Gives.nothing
  · intro found hfound
    apply Gives.pure
    cases found with
    | none => exact List.forall_mem_nil _
    | some ps => exact hfound ps rfl

/-! # Named types -/

theorem gives_typeName (ending : Bool) : Gives PlainNames (typeName ending) := by
  refine Gives.after fun a => Gives.after fun x => Gives.after fun found => ?_
  split
  · refine gives_ident.bind ?_
    intro name hname
    exact Gives.after fun _ => Gives.after fun _ => Gives.pure (.qualified hname)
  · exact Gives.pure (.name x)

theorem gives_namedType (g : Grammar) (ending : Bool) :
    Gives PlainNames (namedType g ending) := by
  refine Gives.after fun a => (gives_typeName ending).bind ?_
  intro base hbase
  refine Gives.after fun arguments => ?_
  split
  · exact Gives.after fun _ => Gives.pure (.generic hbase)
  · exact Gives.pure hbase

theorem gives_union (hg : g.Tidy) (ending : Bool) :
    Gives (fun ts => forall t, t ∈ ts -> PlainNames t) (union g ending) := by
  refine (hg.type ending).bind ?_
  intro first hfirst
  refine (Gives.many (P := PlainNames) ?_).bind fun more hmore =>
    Gives.pure (List.forall_mem_cons.mpr ⟨hfirst, hmore⟩)
  refine Gives.after fun found => ?_
  split
  · exact (hg.type ending).just
  · exact Gives.nothing

/-! # Structs and interfaces -/

theorem gives_namedField (hg : g.Tidy) : Gives (fun f => PlainNames f.type) (namedField g) := by
  have hrest (a : Cursor) (names : List Extent) : Gives (fun f => PlainNames f.type) (do
      let type ← g.type true
      let tag ← optionalTag
      return FieldDecl.named (← since a) names type tag) :=
    (hg.type true).bind fun type htype => Gives.after fun _ => Gives.after fun _ =>
      Gives.pure htype
  refine Gives.after fun a => Gives.after fun names => Gives.after fun ended => ?_
  dsimp only
  split
  · exact Gives.after fun _ => hrest a names
  · exact hrest a names

theorem gives_embeddedField (g : Grammar) :
    Gives (fun f => PlainNames f.type) (embeddedField g) :=
  Gives.after fun _ => Gives.after fun _ => (gives_namedType g true).bind fun _ htype =>
    Gives.after fun _ => Gives.after fun _ => Gives.pure htype

theorem gives_genericField (g : Grammar) : Gives (fun f => PlainNames f.type) (genericField g) := by
  refine (gives_embeddedField g).bind ?_
  intro field hfield
  refine Gives.after fun _ => Gives.after fun char => ?_
  split
  · refine Gives.after fun found => ?_
    split
    · exact Gives.pure hfield
    · exact Gives.fail
  · exact Gives.fail

theorem gives_structType (hg : g.Tidy) (a : Cursor) : Gives PlainNames (structType g a) := by
  have hfield : Gives (fun f => PlainNames f.type) (fieldDecl g) :=
    (gives_genericField g).either ((gives_namedField hg).either (gives_embeddedField g))
  exact Gives.after fun _ => (hfield.separated _).bind fun _ hfields =>
    Gives.after fun _ => Gives.pure (.struct hfields)

theorem gives_methodElem (hg : g.Tidy) : Gives PlainElem (methodElem g) := by
  have hrest (a : Cursor) (name : Extent) : Gives PlainElem (do
      let params ← parameters g
      let results ← results g true
      return InterfaceElem.method (← since a) name params results) :=
    (gives_parameters hg).bind fun _ hparams => (gives_results hg true).bind fun _ hresults =>
      Gives.after fun _ => Gives.pure (.method hparams hresults)
  refine Gives.after fun a => Gives.after fun name => Gives.after fun _ => Gives.after fun opened =>
    ?_
  dsimp only
  split
  · exact Gives.after fun _ => hrest a name
  · exact hrest a name

theorem gives_interfaceType (hg : g.Tidy) (a : Cursor) :
    Gives PlainNames (interfaceType g a) := by
  have hunion : Gives PlainElem (unionElem g) :=
    (gives_union hg true).bind fun _ hterms => Gives.pure (.union hterms)
  exact Gives.after fun _ => (((gives_methodElem hg).either hunion).separated _).bind
    fun _ helems => Gives.after fun _ => Gives.pure (.of_elems helems)

/-! # Channels -/

theorem gives_chanTail (hg : g.Tidy) (ending : Bool) (fuel : Nat) :
    Gives (fun r => PlainNames r.1) (chanTail g ending fuel) := by
  induction fuel with
  | zero => exact Gives.fail
  | succ fuel ih =>
      refine Gives.after fun arrow => Gives.after fun found => ?_
      split
      · refine Gives.after fun b => Gives.after fun word => ?_
        split
        · refine Gives.after fun _ => ih.bind ?_
          rintro ⟨elem, ownArrow⟩ helem
          dsimp only
          split
          · exact Gives.after fun _ => Gives.pure (.chan helem)
          · exact Gives.after fun _ => Gives.pure (.chan helem)
        · exact (hg.type ending).bind fun _ htype => Gives.pure htype
      · exact (hg.type ending).bind fun _ htype => Gives.pure htype

theorem gives_chanType (hg : g.Tidy) (ending : Bool) (a : Cursor) :
    Gives PlainNames (chanType g ending a) :=
  Gives.after fun c => (gives_chanTail hg ending (c.rest.length + 1)).bind fun _ helem =>
    Gives.after fun _ => Gives.pure (.chan helem)

/-! # All types -/

theorem gives_bracketType (hg : g.Tidy) (ending : Bool) (a : Cursor) :
    Gives PlainNames (bracketType g ending a) := by
  refine Gives.after fun closed => ?_
  split
  · exact (hg.type ending).bind fun _ helem => Gives.after fun _ => Gives.pure (.slice helem)
  · exact Gives.after fun _ => Gives.after fun _ => (hg.type ending).bind fun _ helem =>
      Gives.after fun _ => Gives.pure (.array helem)

theorem gives_readBareType (hg : g.Tidy) (ending : Bool) :
    Gives PlainNames (readBareType g ending) := by
  refine Gives.after fun a => Gives.after fun star => ?_
  split
  · exact (hg.type ending).bind fun _ helem => Gives.after fun _ => Gives.pure (.pointer helem)
  · refine Gives.after fun bracket => ?_
    split
    · exact gives_bracketType hg ending a
    · refine Gives.after fun tilde => ?_
      split
      · exact (hg.type ending).bind fun _ hinner => Gives.after fun _ =>
          Gives.pure (.negated hinner)
      · refine Gives.after fun arrow => ?_
        split
        · exact Gives.after fun _ => (hg.type ending).bind fun _ helem =>
            Gives.after fun _ => Gives.pure (.chan helem)
        · refine Gives.after fun word => ?_
          split
          · exact Gives.after fun _ => gives_structType hg a
          · exact Gives.after fun _ => gives_interfaceType hg a
          · exact Gives.after fun _ => Gives.after fun _ => (hg.type false).bind fun _ hkey =>
              Gives.after fun _ => (hg.type ending).bind fun _ hvalue =>
                Gives.after fun _ => Gives.pure (.map hkey hvalue)
          · exact Gives.after fun _ => gives_chanType hg ending a
          · exact Gives.after fun _ => (gives_parameters hg).bind fun _ hparams =>
              (gives_results hg ending).bind fun _ hresults =>
                Gives.after fun _ => Gives.pure (.func hparams hresults)
          · exact gives_namedType g ending

theorem gives_readType (hg : g.Tidy) (ending : Bool) : Gives PlainNames (readType g ending) := by
  refine Gives.after fun a => Gives.after fun opened => ?_
  split
  · exact (hg.type false).bind fun _ hinner => Gives.after fun _ => Gives.after fun _ =>
      Gives.pure (.paren hinner)
  · exact hg.bareType ending

theorem tidy_ofDepth (depth : Nat) : (ofDepth depth).Tidy := by
  induction depth with
  | zero => exact ⟨fun _ => Gives.fail, fun _ => Gives.fail⟩
  | succ depth ih => exact ⟨gives_readType ih, gives_readBareType ih⟩

/-! # Declarations -/

theorem gives_declaredType (hg : g.Tidy) :
    Gives (fun r => PlainNames r.2) (declaredType g) := by
  refine Gives.either ?_ ?_
  · exact (hg.type true).bind fun _ htype => Gives.pure htype
  · exact Gives.after fun _ => (hg.type true).bind fun _ htype => Gives.pure htype

theorem gives_typeSpec_type (hg : g.Tidy) :
    Gives (fun spec => PlainNames spec.type) (typeSpec g) := by
  refine Gives.after fun a => Gives.after fun name => Gives.after fun found => ?_
  split
  · exact (hg.type true).bind fun _ htype => Gives.after fun _ => Gives.after fun _ =>
      Gives.pure htype
  · exact (gives_declaredType hg).bind fun _ htype => Gives.after fun _ => Gives.after fun _ =>
      Gives.pure htype

end Grammar

theorem File.plainNames_of_read {bytes : Text.Bytes} {f : File} (h : File.read bytes = .ok f)
    {d : Decl} (hd : d ∈ f.decls) : Grammar.EachType (fun spec => PlainNames spec.type) d :=
  eachType_of_read (fun depth => Grammar.gives_typeSpec_type (Grammar.tidy_ofDepth depth)) h hd

end Source
end GoAtlas
