import GoAtlas.Proofs.Check.Once
import GoAtlas.Proofs.Lists
import GoAtlas.Proofs.Source.Members

/-!
# Shapes of resolved types

A type that was resolved has the shape that is written, and there is a complaint for every name
that is repeated in it.  What names lead to is left open; what is asked of it is kept by all types
that are built.
-/

namespace GoAtlas

open Source (typeRepeats typesRepeats paramsRepeats fieldsRepeats elemsRepeats)

/-!
# Passes that complain
-/

def hardErrors (errors : List TypeError) : List TypeError :=
  errors.filter fun e => !e.isSoft

/-- From a state of which it holds the pass leads to another one, with the result as given and
with these hard complaints among the new ones, in order. -/
def Voices {α : Type} (answers : Answers) (I : Progress -> Prop) (m : Resolve α) (Q : α -> Prop)
    (voiced : List TypeError) : Prop :=
  forall p, I p -> Q (m.outcome answers p).1 ∧ I (m.outcome answers p).2 ∧
    exists added, (m.outcome answers p).2.errors = p.errors ++ added ∧
      voiced.Sublist (hardErrors added)

namespace Voices

variable {answers : Answers} {I : Progress -> Prop} {α β : Type}

theorem pure {a : α} {Q : α -> Prop} (h : Q a) : Voices answers I (Pure.pure a) Q [] := by
  intro p hp
  exact ⟨h, hp, [], (List.append_nil _).symm, List.Sublist.refl _⟩

theorem bind {m : Resolve α} {f : α -> Resolve β} {P : α -> Prop} {Q : β -> Prop}
    {voiced more : List TypeError} (hm : Voices answers I m P voiced)
    (hf : forall a, P a -> Voices answers I (f a) Q more) :
    Voices answers I (m >>= f) Q (voiced ++ more) := by
  intro p hp
  obtain ⟨ha, hmid, added, heq, hvoiced⟩ := hm p hp
  obtain ⟨hb, hend, added', heq', hmore⟩ := hf _ ha _ hmid
  rw [Resolve.outcome_bind]
  refine ⟨hb, hend, added ++ added', ?_, ?_⟩
  · rw [heq', heq, List.append_assoc]
  · unfold hardErrors
    rw [List.filter_append]
    exact hvoiced.append hmore

theorem bind_pure {m : Resolve α} {f : α -> β} {P : α -> Prop} {Q : β -> Prop}
    {voiced : List TypeError} (hm : Voices answers I m P voiced) (hf : forall a, P a -> Q (f a)) :
    Voices answers I (m >>= fun a => Pure.pure (f a)) Q voiced := by
  rw [← List.append_nil voiced]
  exact hm.bind fun a ha => pure (hf a ha)

theorem mono {m : Resolve α} {P Q : α -> Prop} {voiced : List TypeError}
    (hm : Voices answers I m P voiced) (h : forall a, P a -> Q a) :
    Voices answers I m Q voiced := by
  intro p hp
  obtain ⟨ha, hrest⟩ := hm p hp
  exact ⟨h _ ha, hrest⟩

theorem less {m : Resolve α} {Q : α -> Prop} {voiced fewer : List TypeError}
    (hm : Voices answers I m Q voiced) (h : fewer.Sublist voiced) :
    Voices answers I m Q fewer := by
  intro p hp
  obtain ⟨ha, hend, added, heq, hvoiced⟩ := hm p hp
  exact ⟨ha, hend, added, heq, h.trans hvoiced⟩

theorem complain (hI : forall p file line isSoft complaint,
      I p -> I (p.complained file line isSoft complaint)) (file : String) (line : Nat)
    (complaint : Complaint) :
    Voices answers I (Resolve.complain file line complaint) (fun _ => True)
      [⟨complaint, false, some file, some line⟩] := by
  intro p hp
  exact ⟨trivial, hI p file line false complaint hp, _, rfl, List.Sublist.refl _⟩

theorem foldlM {items : List α} {f : β -> α -> Resolve β} {P : β -> Prop}
    {voiced : α -> List TypeError}
    (hf : forall b a, a ∈ items -> P b -> Voices answers I (f b a) P (voiced a)) {b : β}
    (hb : P b) : Voices answers I (items.foldlM f b) P (items.flatMap voiced) := by
  induction items generalizing b with
  | nil => exact pure hb
  | cons a rest ih =>
      rw [List.foldlM_cons, List.flatMap_cons]
      exact (hf b a List.mem_cons_self hb).bind fun b hb =>
        ih (fun b a ha => hf b a (List.mem_cons_of_mem _ ha)) hb

end Voices

theorem Voices.of_steady {answers : Answers} {α : Type} {m : Resolve α}
    (h : Steady Progress.ledger m) :
    Voices answers (fun _ => True) m (fun _ => True) [] := by
  intro p _
  obtain ⟨added, hadded⟩ := (h answers p).errors
  exact ⟨trivial, trivial, added, hadded.symm, List.nil_sublist _⟩

/-- What holds of types is kept by the types that are built of them.  The names of the fields and
methods in a type are distinct, blank fields apart. -/
structure Composes (Good : GoType -> Prop) : Prop where
  invalid : Good .invalid
  pointer : forall {elem}, Good elem -> Good (.pointer elem)
  slice : forall {elem}, Good elem -> Good (.slice elem)
  array : forall {n elem}, Good elem -> Good (.array n elem)
  map : forall {key value}, Good key -> Good value -> Good (.map key value)
  chan : forall {dir elem}, Good elem -> Good (.chan dir elem)
  func : forall {params results variadic}, (forall t, t ∈ params -> Good t) ->
    (forall t, t ∈ results -> Good t) -> Good (.func ⟨params, results, variadic⟩)
  struct : forall {fields : List (Field GoType)},
    ((fields.map Field.name).filter fun name => !Source.isBlank name).Nodup ->
    (forall f, f ∈ fields -> Good f.type) -> Good (.struct fields)
  interface : forall {methods : List (InterfaceMethod GoType)} {embedded : List GoType},
    (methods.map InterfaceMethod.name).Nodup ->
    (forall m, m ∈ methods -> Good (.func m.signature)) -> (forall t, t ∈ embedded -> Good t) ->
    Good (.interface methods embedded)

theorem composes_all : Composes fun _ => True where
  invalid := trivial
  pointer _ := trivial
  slice _ := trivial
  array _ := trivial
  map _ _ := trivial
  chan _ := trivial
  func _ _ := trivial
  struct _ _ := trivial
  interface _ _ _ := trivial

def Source.TypeExpr.Makes (Good : GoType -> Prop) (e : Source.TypeExpr) (type : GoType) : Prop :=
  e.Shapes type ∧ Good type

section Joined

variable {Good : GoType -> Prop} {α : Type} {free : String -> Bool} {nameOf : α -> String}
  {typeOf : α -> GoType} {known mid all : List α} {xs ys : List Source.Member}

def Joined (Good : GoType -> Prop) (free : String -> Bool) (nameOf : α -> String)
    (typeOf : α -> GoType) (known : List α) (members : List Source.Member) (all : List α) : Prop :=
  exists new, all = known ++ new ∧ List.Forall₂
    (fun m a => nameOf a = m.name ∧ m.type.Makes Good (typeOf a))
    (Source.Member.firsts free (known.map nameOf) members) new

namespace Joined

theorem nil : Joined Good free nameOf typeOf known [] known :=
  ⟨[], (List.append_nil _).symm, .nil⟩

theorem names (h : Joined Good free nameOf typeOf known xs all) :
    all.map nameOf = Source.Member.seenAfter free (known.map nameOf) xs := by
  obtain ⟨new, rfl, hnew⟩ := h
  rw [List.map_append, map_eq_map_of_forall₂ (fun _ _ h => h.1) hnew]
  rfl

theorem append (h : Joined Good free nameOf typeOf known xs mid)
    (h' : Joined Good free nameOf typeOf mid ys all) :
    Joined Good free nameOf typeOf known (xs ++ ys) all := by
  have hnames := h.names
  obtain ⟨new, rfl, hnew⟩ := h
  obtain ⟨more, rfl, hmore⟩ := h'
  rw [hnames] at hmore
  refine ⟨new ++ more, List.append_assoc _ _ _, ?_⟩
  rw [Source.Member.firsts_append]
  exact List.rel_append hnew hmore

theorem single {m : Source.Member} {a : α} (hname : nameOf a = m.name)
    (htype : m.type.Makes Good (typeOf a)) :
    Joined Good free nameOf typeOf known [m]
      (if !free m.name && (known.map nameOf).contains m.name then known else known ++ [a]) := by
  unfold Joined
  rw [Source.Member.firsts]
  split
  · exact ⟨[], (List.append_nil _).symm, .nil⟩
  · exact ⟨[a], rfl, .cons ⟨hname, htype⟩ .nil⟩

end Joined
end Joined

namespace Scope

/-- Names lead to good types, from states of which it holds. -/
structure Provides (answers : Answers) (I : Progress -> Prop) (Good : GoType -> Prop) (sc : Scope)
    (links : Links) : Prop where
  composes : Composes Good
  complained : forall p file line isSoft complaint,
    I p -> I (p.complained file line isSoft complaint)
  named : forall file tparams x, Voices answers I (sc.namedType links file tparams x) Good []
  qualified : forall file label name,
    Voices answers I (sc.qualifiedType file label name) Good []
  evaluated : forall file iota e,
    Voices answers I (sc.eval links file iota e).run (fun _ => True) []

theorem Provides.invalid {answers : Answers} {I : Progress -> Prop} {Good : GoType -> Prop}
    {sc : Scope} {links : Links} (h : sc.Provides answers I Good links) (file : String) (line : Nat)
    (complaint : Complaint) :
    Voices answers I (Resolve.invalid file line complaint) (fun type => type = .invalid) [] :=
  ((Voices.complain h.complained file line complaint).bind_pure fun _ _ => rfl).less
    (List.nil_sublist _)

theorem provides_of_steady {sc : Scope} {links : Links} (answers : Answers)
    (hlinks : SteadyLinks links) :
    sc.Provides answers (fun _ => True) (fun _ => True) links := by
  have hself : Setting sc sc (fun _ _ => True) (fun _ => True) fun _ _ => True :=
    sc.setting_self fun _ _ => trivial
  constructor
  · exact composes_all
  · exact fun _ _ _ _ _ _ => trivial
  · intro file tparams x
    exact Voices.of_steady (steady_of_trail hlinks (trail_namedType hself file tparams x))
  · intro file label name
    exact Voices.of_steady (steady_of_trail hlinks (trail_qualifiedType hself file label name))
  · intro file iota e
    exact Voices.of_steady
      (steady_of_trail hlinks (trail_eval hself file iota e fun _ _ => trivial))

section Shapes

open Source (isBlank noneFree)
open Source.Member (firsts repeated seenAfter redeclared duplicated)

variable {answers : Answers} {I : Progress -> Prop} {Good : GoType -> Prop} {sc : Scope}
  {links : Links}

/-!
# Fields and methods
-/

theorem contains_names {α : Type} (nameOf : α -> String) (known : List α) (name : String) :
    (known.map nameOf).contains name = known.any fun a => nameOf a == name := by
  rw [List.contains_eq_any_beq, List.any_map]
  congr 1
  funext a
  exact BEq.comm

/-- A member whose name is taken is complained about and stays out. -/
theorem voices_join (h : sc.Provides answers I Good links) {free : String -> Bool} {α : Type}
    {nameOf : α -> String} {typeOf : α -> GoType} {known : List α} {a : α} {m : Source.Member}
    (hname : nameOf a = m.name) (htype : m.type.Makes Good (typeOf a)) (file : String)
    (complaint : String -> Complaint) {taken : Bool}
    (htaken : taken = (!free m.name && known.any fun b => nameOf b == m.name)) :
    Voices answers I
      (if taken then do
        Resolve.complain file m.line (complaint (nameOf a))
        return known
      else return known ++ [a])
      (Joined Good free nameOf typeOf known [m])
      ((repeated free (known.map nameOf) [m]).map fun m =>
        ⟨complaint m.name, false, some file, some m.line⟩) := by
  have hjoined : Joined Good free nameOf typeOf known [m] _ := Joined.single hname htype
  rw [contains_names, ← htaken] at hjoined
  rw [repeated, contains_names, ← htaken, hname]
  split
  · next hold =>
      rw [if_pos hold] at hjoined
      exact (Voices.complain h.complained file m.line _).bind_pure fun _ _ => hjoined
  · next hnew =>
      rw [if_neg hnew] at hjoined
      exact Voices.pure hjoined

theorem voices_addField (h : sc.Provides answers I Good links) {file : String} {m : Source.Member}
    {fields : List (Field GoType)} {f : Field GoType} (hname : f.name = m.name)
    (htype : m.type.Makes Good f.type) :
    Voices answers I (addField file m.line fields f)
      (Joined Good isBlank Field.name Field.type fields [m])
      ((repeated isBlank (fields.map Field.name) [m]).map (redeclared file)) :=
  voices_join h hname htype file .fieldRedeclared (hname ▸ rfl)

theorem voices_addFields (h : sc.Provides answers I Good links) {file : String}
    {e : Source.TypeExpr} {type : GoType} (htype : e.Makes Good type) (tag : Option String)
    (path : String) (fields : List (Field GoType)) (names : List Source.Extent) :
    Voices answers I (addFields file type tag path fields names)
      (Joined Good isBlank Field.name Field.type fields (names.map fun x => ⟨x.text, x.line, e⟩))
      ((repeated isBlank (fields.map Field.name) (names.map fun x => ⟨x.text, x.line, e⟩)).map
        (redeclared file)) := by
  induction names generalizing fields with
  | nil => exact Voices.pure Joined.nil
  | cons x rest ih =>
      have hmembers : (x :: rest).map (fun x => (⟨x.text, x.line, e⟩ : Source.Member)) =
          [⟨x.text, x.line, e⟩] ++ rest.map fun x => ⟨x.text, x.line, e⟩ := rfl
      rw [hmembers, Source.Member.repeated_append, List.map_append]
      refine (voices_addField h (m := ⟨x.text, x.line, e⟩) rfl htype).bind fun mid hmid => ?_
      rw [← hmid.names]
      exact (ih mid).mono fun all hall => hmid.append hall

theorem voices_addMethod (h : sc.Provides answers I Good links) {file : String} {m : Source.Member}
    {methods : List (InterfaceMethod GoType)} {n : InterfaceMethod GoType} (hname : n.name = m.name)
    (htype : m.type.Makes Good (.func n.signature)) :
    Voices answers I (addMethod file m.line methods n)
      (Joined Good noneFree InterfaceMethod.name (fun n => .func n.signature) methods [m])
      ((repeated noneFree (methods.map InterfaceMethod.name) [m]).map (duplicated file)) :=
  voices_join h hname htype file .duplicateMethod (hname ▸ rfl)

/-!
# Type expressions
-/

theorem shapes_of_makes {es : List Source.TypeExpr} {types : List GoType}
    (h : List.Forall₂ (Source.TypeExpr.Makes Good) es types) :
    List.Forall₂ Source.TypeExpr.Shapes es types ∧ forall t, t ∈ types -> Good t := by
  refine ⟨h.imp fun _ _ => And.left, fun t ht => ?_⟩
  obtain ⟨_, _, hmakes⟩ := exists_mem_left h ht
  exact hmakes.2

def Listed (Good : GoType -> Prop) (params : List Source.Param) (found : List GoType × Bool) :
    Prop :=
  List.Forall₂ (Source.TypeExpr.Makes Good) (params.flatMap Source.Param.places) found.1 ∧
    found.2 = params.any Source.Param.isVariadic

theorem Listed.func (hgood : Composes Good) {x : Source.Extent} {params results : List Source.Param}
    {types found : List GoType × Bool} (hparams : Listed Good params types)
    (hresults : Listed Good results found) :
    (Source.TypeExpr.func x params results).Makes Good (.func ⟨types.1, found.1, types.2⟩) := by
  obtain ⟨htypes, hgoodTypes⟩ := shapes_of_makes hparams.1
  obtain ⟨hfound, hgoodFound⟩ := shapes_of_makes hresults.1
  rw [hparams.2]
  exact ⟨.func htypes hfound, hgood.func hgoodTypes hgoodFound⟩

theorem forall₂_joined {free : String -> Bool} {α : Type} {nameOf : α -> String}
    {typeOf : α -> GoType} {members : List Source.Member} {all : List α}
    (h : Joined Good free nameOf typeOf [] members all) :
    all.map nameOf = (firsts free [] members).map Source.Member.name ∧
      List.Forall₂ Source.TypeExpr.Shapes ((firsts free [] members).map Source.Member.type)
        (all.map typeOf) ∧ forall a, a ∈ all -> Good (typeOf a) := by
  obtain ⟨new, rfl, hnew⟩ := h
  have htypes : List.Forall₂ (Source.TypeExpr.Makes Good)
      ((firsts free [] members).map Source.Member.type) (all.map typeOf) :=
    List.forall₂_map_left_iff.mpr (List.forall₂_map_right_iff.mpr (hnew.imp fun _ _ h => h.2))
  obtain ⟨hshapes, hgood⟩ := shapes_of_makes htypes
  refine ⟨map_eq_map_of_forall₂ (fun _ _ h => h.1) hnew, hshapes, fun a ha => ?_⟩
  exact hgood _ (List.mem_map_of_mem ha)

theorem makes_struct (hgood : Composes Good) {x : Source.Extent} {decls : List Source.FieldDecl}
    {fields : List (Field GoType)}
    (h : Joined Good isBlank Field.name Field.type [] (decls.flatMap Source.FieldDecl.members)
      fields) : (Source.TypeExpr.struct x decls).Makes Good (.struct fields) := by
  obtain ⟨hnames, hshapes, hall⟩ := forall₂_joined h
  refine ⟨.struct hnames hshapes, hgood.struct ?_ hall⟩
  rw [hnames]
  exact Source.Member.nodup_firsts _

theorem makes_interface (hgood : Composes Good) {x : Source.Extent}
    {elems : List Source.InterfaceElem} {methods : List (InterfaceMethod GoType)}
    {embedded : List GoType}
    (h : Joined Good noneFree InterfaceMethod.name (fun n => .func n.signature) []
      (elems.flatMap Source.InterfaceElem.members) methods)
    (hterms : List.Forall₂ (Source.TypeExpr.Makes Good)
      (elems.flatMap Source.InterfaceElem.terms) embedded) :
    (Source.TypeExpr.interface x elems).Makes Good (.interface methods embedded) := by
  obtain ⟨hnames, hshapes, hall⟩ := forall₂_joined h
  obtain ⟨htypes, hgoodTerms⟩ := shapes_of_makes hterms
  refine ⟨.interface hnames hshapes htypes, hgood.interface ?_ hall hgoodTerms⟩
  have hnodup : (((firsts noneFree [] (elems.flatMap Source.InterfaceElem.members)).map
      Source.Member.name).filter fun name => !noneFree name).Nodup :=
    Source.Member.nodup_firsts _
  rw [← hnames] at hnodup
  have hall : (methods.map InterfaceMethod.name).filter (fun name => !noneFree name) =
      methods.map InterfaceMethod.name := List.filter_eq_self.mpr fun _ _ => rfl
  exact hall ▸ hnodup

theorem listed_cons {p : Source.Param} {params : List Source.Param} {types more : List GoType}
    {flag rest : Bool} (htypes : List.Forall₂ (Source.TypeExpr.Makes Good) p.places types)
    (hrest : Listed Good params (more, rest)) (hflag : flag = (p.isVariadic || rest)) :
    Listed Good (p :: params) (types ++ more, flag) := by
  refine ⟨?_, ?_⟩
  · rw [List.flatMap_cons]
    exact List.rel_append htypes hrest.1
  · rw [List.any_cons, hflag]
    exact congrArg (p.isVariadic || ·) hrest.2

theorem forall₂_replicate {e : Source.TypeExpr} {type : GoType} (h : e.Makes Good type) (n : Nat) :
    List.Forall₂ (Source.TypeExpr.Makes Good) (List.replicate n e) (List.replicate n type) := by
  induction n with
  | zero => exact .nil
  | succ n ih => exact .cons h ih

mutual

theorem voices_resolveType (h : sc.Provides answers I Good links) (file : String)
    (tparams : List String) (e : Source.TypeExpr) :
    Voices answers I (sc.resolveType links file tparams e) (e.Makes Good)
      (typeRepeats file e) := by
  match e with
  | .name x =>
      rw [resolveType, typeRepeats]
      exact (h.named file tparams x).mono fun type ht => ⟨.name x type, ht⟩
  | .qualified x label name =>
      rw [resolveType, typeRepeats]
      exact (h.qualified file label name).mono fun type ht => ⟨.qualified x label name type, ht⟩
  | .generic _ base _ =>
      rw [resolveType, typeRepeats]
      exact (voices_resolveType h file tparams base).mono fun _ ht => ⟨.generic ht.1, ht.2⟩
  | .paren _ inner =>
      rw [resolveType, typeRepeats]
      exact (voices_resolveType h file tparams inner).mono fun _ ht => ⟨.paren ht.1, ht.2⟩
  | .negated _ inner =>
      rw [resolveType, typeRepeats]
      exact (voices_resolveType h file tparams inner).mono fun _ ht => ⟨.negated ht.1, ht.2⟩
  | .pointer _ elem =>
      rw [resolveType, typeRepeats]
      exact (voices_resolveType h file tparams elem).bind_pure fun _ ht =>
        ⟨.pointer ht.1, h.composes.pointer ht.2⟩
  | .slice _ elem =>
      rw [resolveType, typeRepeats]
      exact (voices_resolveType h file tparams elem).bind_pure fun _ ht =>
        ⟨.slice ht.1, h.composes.slice ht.2⟩
  | .array x len elem =>
      rw [resolveType, typeRepeats, ← List.append_nil (typeRepeats file elem)]
      refine (voices_resolveType h file tparams elem).bind fun type ht => ?_
      rw [← List.append_nil []]
      refine (h.evaluated file none len).bind fun value _ => ?_
      cases lengthOf? value with
      | some n => exact Voices.pure ⟨.array n ht.1, h.composes.array ht.2⟩
      | none =>
          refine (h.invalid _ _ _).mono fun _ heq => ?_
          exact heq ▸ ⟨.unsized x len elem, h.composes.invalid⟩
  | .map _ key value =>
      rw [resolveType, typeRepeats]
      exact (voices_resolveType h file tparams key).bind fun _ hk =>
        (voices_resolveType h file tparams value).bind_pure fun _ hv =>
          ⟨.map hk.1 hv.1, h.composes.map hk.2 hv.2⟩
  | .chan _ dir elem =>
      rw [resolveType, typeRepeats]
      exact (voices_resolveType h file tparams elem).bind_pure fun _ ht =>
        ⟨.chan ht.1, h.composes.chan ht.2⟩
  | .func _ params results =>
      rw [resolveType, typeRepeats]
      exact (voices_paramTypes h file tparams params).bind fun _ hp =>
        (voices_paramTypes h file tparams results).bind_pure fun _ hr => hp.func h.composes hr
  | .struct _ decls =>
      rw [resolveType, typeRepeats]
      exact (voices_structFields h file tparams [] decls).bind_pure fun _ hall =>
        makes_struct h.composes hall
  | .interface x elems =>
      rw [resolveType, typeRepeats]
      refine (voices_interfaceElems h file tparams [] [] elems).mono ?_
      rintro type ⟨methods, terms, rfl, hmethods, hterms⟩
      exact makes_interface h.composes hmethods hterms

theorem voices_paramTypes (h : sc.Provides answers I Good links) (file : String)
    (tparams : List String) (params : List Source.Param) :
    Voices answers I (sc.paramTypes links file tparams params) (Listed Good params)
      (paramsRepeats file params) := by
  match params with
  | [] =>
      rw [paramTypes, paramsRepeats]
      exact Voices.pure ⟨.nil, rfl⟩
  | .plain names type :: rest =>
      rw [paramTypes, paramsRepeats]
      exact (voices_resolveType h file tparams type).bind fun _ ht =>
        (voices_paramTypes h file tparams rest).bind_pure fun _ hrest =>
          listed_cons (forall₂_replicate ht _) hrest rfl
  | .variadic name type :: rest =>
      rw [paramTypes, paramsRepeats]
      refine (voices_resolveType h file tparams type).bind fun _ ht =>
        (voices_paramTypes h file tparams rest).bind_pure fun _ hrest => ?_
      exact listed_cons (p := .variadic name type)
        (.cons ⟨.slice ht.1, h.composes.slice ht.2⟩ .nil) hrest rfl

theorem voices_structFields (h : sc.Provides answers I Good links) (file : String)
    (tparams : List String) (fields : List (Field GoType)) (decls : List Source.FieldDecl) :
    Voices answers I (sc.structFields links file tparams fields decls)
      (Joined Good isBlank Field.name Field.type fields (decls.flatMap Source.FieldDecl.members))
      (fieldsRepeats file (fields.map Field.name) decls) := by
  match decls with
  | [] =>
      rw [structFields, fieldsRepeats]
      exact Voices.pure Joined.nil
  | .named _ names type tag :: rest =>
      rw [structFields, fieldsRepeats, List.flatMap_cons, List.append_assoc]
      refine (voices_resolveType h file tparams type).bind fun found hfound => ?_
      refine (voices_addFields h hfound (tagOf tag) sc.path fields names).bind fun mid hmid => ?_
      exact hmid.names ▸ (voices_structFields h file tparams mid rest).mono fun all hall =>
        hmid.append hall
  | .embedded _ star type tag :: rest =>
      rw [structFields, fieldsRepeats, List.flatMap_cons, List.append_assoc]
      refine (voices_resolveType h file tparams type).bind fun found hfound => ?_
      have hmakes : Source.TypeExpr.Makes Good
          (if star then .pointer type.extent type else type)
          (if star then .pointer found else found) := by
        split
        · exact ⟨.pointer hfound.1, h.composes.pointer hfound.2⟩
        · exact hfound
      refine (voices_addField h (m := ⟨embeddedName type, type.extent.line, _⟩) rfl hmakes).bind
        fun mid hmid => ?_
      exact hmid.names ▸ (voices_structFields h file tparams mid rest).mono fun all hall =>
        hmid.append hall

theorem voices_interfaceElems (h : sc.Provides answers I Good links) (file : String)
    (tparams : List String) (methods : List (InterfaceMethod GoType)) (embedded : List GoType)
    (elems : List Source.InterfaceElem) :
    Voices answers I (sc.interfaceElems links file tparams methods embedded elems)
      (fun type => exists all terms, type = .interface all (embedded ++ terms) ∧
        Joined Good noneFree InterfaceMethod.name (fun n => .func n.signature) methods
          (elems.flatMap Source.InterfaceElem.members) all ∧
        List.Forall₂ (Source.TypeExpr.Makes Good) (elems.flatMap Source.InterfaceElem.terms) terms)
      (elemsRepeats file (methods.map InterfaceMethod.name) elems) := by
  match elems with
  | [] =>
      rw [interfaceElems, elemsRepeats]
      exact Voices.pure ⟨methods, [], by rw [List.append_nil], Joined.nil, .nil⟩
  | .method x name params results :: rest =>
      rw [interfaceElems, elemsRepeats]
      dsimp only
      rw [List.append_assoc, List.append_assoc]
      refine (voices_paramTypes h file tparams params).bind fun types htypes => ?_
      refine (voices_paramTypes h file tparams results).bind fun found hfound => ?_
      have hfunc := htypes.func (x := x) h.composes hfound
      refine (voices_addMethod h (m := ⟨name.text, x.line, _⟩) rfl hfunc).bind fun mid hmid => ?_
      refine hmid.names ▸ (voices_interfaceElems h file tparams mid embedded rest).mono ?_
      rintro type ⟨all, terms, rfl, hall, hterms⟩
      exact ⟨all, terms, rfl, hmid.append hall, hterms⟩
  | .union terms :: rest =>
      rw [interfaceElems, elemsRepeats]
      refine (voices_resolveTypes h file tparams terms).bind fun types htypes => ?_
      refine (voices_interfaceElems h file tparams methods (embedded ++ types) rest).mono ?_
      rintro type ⟨all, more, rfl, hall, hmore⟩
      refine ⟨all, types ++ more, by rw [List.append_assoc], hall, ?_⟩
      exact List.rel_append htypes hmore

theorem voices_resolveTypes (h : sc.Provides answers I Good links) (file : String)
    (tparams : List String) (types : List Source.TypeExpr) :
    Voices answers I (sc.resolveTypes links file tparams types)
      (List.Forall₂ (Source.TypeExpr.Makes Good) types) (typesRepeats file types) := by
  match types with
  | [] =>
      rw [resolveTypes, typesRepeats]
      exact Voices.pure .nil
  | type :: rest =>
      rw [resolveTypes, typesRepeats]
      exact (voices_resolveType h file tparams type).bind fun _ ht =>
        (voices_resolveTypes h file tparams rest).bind_pure fun _ hrest => .cons ht hrest

end

theorem voices_signatureWith (h : sc.Provides answers I Good links) (file : String)
    (tparams : List String) (d : Source.MethodDecl) :
    Voices answers I (sc.signatureWith links file tparams d)
      (fun signature => (Source.TypeExpr.func d.extent d.params d.results).Makes Good
        (.func signature))
      (typeRepeats file (.func d.extent d.params d.results)) := by
  rw [typeRepeats]
  exact (voices_paramTypes h file tparams d.params).bind fun _ hparams =>
    (voices_paramTypes h file tparams d.results).bind_pure fun _ hresults =>
      hparams.func h.composes hresults

end Shapes
end Scope

/-- What a pass over a written type comes to: its shape, and a complaint for each name that is
repeated in it. -/
structure Source.TypeExpr.Examined (file : String) (e : Source.TypeExpr) (before : Progress)
    (r : GoType × Progress) : Prop where
  shapes : e.Shapes r.1
  repeats : exists added, r.2.errors = before.errors ++ added ∧
    (typeRepeats file e).Sublist (hardErrors added)

/-- So it is for every written type, whatever names lead to and whatever is pending. -/
theorem Scope.examined_resolveType (sc : Scope) (answers : Answers) (fuel : Nat)
    (pending : List Scope.Pending) (file : String) (tparams : List String) (e : Source.TypeExpr)
    (p : Progress) :
    e.Examined file p
      ((sc.resolveType (sc.linksWithin fuel pending) file tparams e).outcome answers p) := by
  obtain ⟨hmakes, -, hvoiced⟩ := voices_resolveType
    (provides_of_steady answers (sc.steady_linksWithin fuel pending)) file tparams e p trivial
  exact ⟨hmakes.1, hvoiced⟩

end GoAtlas
