import GoAtlas.Proofs.Session.MethodSets
import GoAtlas.Proofs.Session.Soundness

/-!
# The order of promotion

A method set is found by going through the embedded types level by level: a method has the
signature of the first type on the way that has it by itself.  The way is the same from a type
and from a pointer to it, but a type that is reached by value keeps its pointer methods to itself.
So what a value has, a pointer to it has as well, unless a pointer method that the value does not
have comes before it.
-/

namespace GoAtlas
namespace Session

/-!
# The way through embedded types
-/

def own? (s : Session) (method : String) (r : Reached) : Option (Signature GoType) :=
  (s.oneLevel r).1.get? method

def newcomers : List Reached -> Visited -> List Reached
  | [], _ => []
  | r :: rest, seen =>
      if seen.contains r.name.full then newcomers rest seen
      else r :: newcomers rest (r.name.full :: seen)

def visits (s : Session) : Nat -> List Reached -> Visited -> List Reached
  | 0, _, _ => []
  | levels + 1, here, seen =>
      let (_, deeper, later) := s.wholeLevel here seen
      newcomers here seen ++ s.visits levels deeper later

def visitsFrom (s : Session) (r : Reached) : List Reached :=
  s.visits (s.known.length + 3) [r] []

variable (s : Session)

theorem get?_wholeLevel (method : String) (here : List Reached) (seen : Visited) :
    (s.wholeLevel here seen).1.get? method = (newcomers here seen).findSome? (s.own? method) := by
  induction here generalizing seen with
  | nil => rfl
  | cons r rest ih =>
      unfold wholeLevel newcomers
      split
      · exact ih seen
      · dsimp only
        rw [Table.get?_addNew, ih, List.findSome?_cons]
        unfold own?
        cases (s.oneLevel r).1.get? method with
        | none => rfl
        | some signature => rfl

theorem visits_nil (levels : Nat) (seen : Visited) : s.visits levels [] seen = [] := by
  induction levels with
  | zero => rfl
  | succ levels ih => exact ih

theorem get?_promotedWithin (method : String) (levels : Nat) (here : List Reached)
    (seen : Visited) :
    (s.promotedWithin levels here seen).get? method =
      (s.visits levels here seen).findSome? (s.own? method) := by
  induction levels generalizing here seen with
  | zero => rfl
  | succ levels ih =>
      unfold promotedWithin
      split
      · next hempty =>
          rw [List.isEmpty_iff.mp hempty, visits_nil]
          rfl
      · unfold visits
        dsimp only
        rw [Table.get?_addNew, get?_wholeLevel, ih, List.findSome?_append]

theorem get?_promotedMethods (method : String) (r : Reached) :
    (s.promotedMethods [r]).get? method = (s.visitsFrom r).findSome? (s.own? method) :=
  s.get?_promotedWithin method _ [r] []

/-!
# The way from a pointer
-/

def Reached.raised (r : Reached) : Reached := ⟨r.name, true⟩

theorem embeddedTypes_raised (viaPointer : Bool) (fields : List (Field GoType)) :
    embeddedTypes true fields = (embeddedTypes viaPointer fields).map Reached.raised := by
  unfold embeddedTypes
  rw [List.map_filterMap]
  apply List.filterMap_congr
  intro f _
  cases f.type with
  | named name => rfl
  | pointer elem =>
      rw [Option.map_map]
      rfl
  | _ => rfl

theorem oneLevel_raised (r : Reached) :
    (s.oneLevel r.raised).2 = (s.oneLevel r).2.map Reached.raised := by
  have hname : r.raised.name = r.name := rfl
  unfold oneLevel
  rw [hname]
  cases s.typeDef? r.name with
  | none => rfl
  | some d =>
      dsimp only
      split
      · cases s.unalias d.underlying with
        | named name => rfl
        | _ => rfl
      · cases d.underlying with
        | interface methods embedded => rfl
        | struct fields => exact embeddedTypes_raised r.viaPointer fields
        | _ => rfl

theorem newcomers_raised (here : List Reached) (seen : Visited) :
    newcomers (here.map Reached.raised) seen = (newcomers here seen).map Reached.raised := by
  induction here generalizing seen with
  | nil => rfl
  | cons r rest ih =>
      have hname : r.raised.name = r.name := rfl
      rw [List.map_cons, newcomers, newcomers, hname]
      split
      · exact ih seen
      · rw [ih, List.map_cons]

theorem wholeLevel_raised (here : List Reached) (seen : Visited) :
    (s.wholeLevel (here.map Reached.raised) seen).2.1 =
        (s.wholeLevel here seen).2.1.map Reached.raised ∧
      (s.wholeLevel (here.map Reached.raised) seen).2.2 = (s.wholeLevel here seen).2.2 := by
  induction here generalizing seen with
  | nil => exact ⟨rfl, rfl⟩
  | cons r rest ih =>
      have hname : r.raised.name = r.name := rfl
      rw [List.map_cons, wholeLevel, wholeLevel, hname]
      split
      · exact ih seen
      · obtain ⟨hdeeper, hseen⟩ := ih (r.name.full :: seen)
        dsimp only
        rw [hdeeper, hseen, oneLevel_raised, List.map_append]
        exact ⟨rfl, rfl⟩

/-- From a pointer the same types are come to in the same order, all of them through
pointers. -/
theorem visits_raised (levels : Nat) (here : List Reached) (seen : Visited) :
    s.visits levels (here.map Reached.raised) seen =
      (s.visits levels here seen).map Reached.raised := by
  induction levels generalizing here seen with
  | zero => rfl
  | succ levels ih =>
      obtain ⟨hdeeper, hseen⟩ := s.wholeLevel_raised here seen
      unfold visits
      dsimp only
      rw [newcomers_raised, hdeeper, hseen, ih, List.map_append]

/-!
# Methods that a value does not have
-/

def Withholds (s : Session) (method : String) (r : Reached) : Prop :=
  r.viaPointer = false ∧ exists d m, s.typeDef? r.name = some d ∧ m ∈ d.methods ∧
    m.name = method ∧ m.onPointer = true

def methodEntry (m : Method) : String × Signature GoType := (m.name, m.signature)

theorem get?_foldl_methods (methods : List Method) (method : String) :
    (methods.foldl (fun t m => t.insertNew m.name m.signature) Table.empty).get? method =
      (methods.map methodEntry).lookup method := by
  have hfold := Table.get?_foldl_insertNew (methods.map methodEntry) Table.empty method
  rw [List.foldl_map] at hfold
  exact hfold

theorem lookup_filter_methods {methods : List Method} {p : Method -> Bool} {method : String}
    (h : forall m, m ∈ methods -> m.name = method -> p m = true) :
    ((methods.filter p).map methodEntry).lookup method =
      (methods.map methodEntry).lookup method := by
  induction methods with
  | nil => rfl
  | cons m rest ih =>
      obtain ⟨hm, hrest⟩ := List.forall_mem_cons.mp h
      rw [List.filter_cons, List.map_cons, List.lookup_cons]
      by_cases hp : p m = true
      · rw [if_pos hp, List.map_cons, List.lookup_cons, ih hrest]
      · have hne : (method == (methodEntry m).1) = false := by
          apply beq_eq_false_iff_ne.mpr
          intro heq
          exact hp (hm heq.symm)
        rw [if_neg hp, hne]
        exact ih hrest

theorem own?_raised (method : String) (r : Reached) :
    s.own? method r.raised = s.own? method r ∨
      s.Withholds method r ∧ exists signature, s.own? method r.raised = some signature := by
  have hname : r.raised.name = r.name := rfl
  unfold own? oneLevel
  rw [hname]
  cases hd : s.typeDef? r.name with
  | none => exact Or.inl rfl
  | some d =>
      dsimp only
      split
      · apply Or.inl
        cases s.unalias d.underlying with
        | named name => rfl
        | _ => rfl
      · split
        · exact Or.inl rfl
        · dsimp only
          rw [get?_foldl_methods, get?_foldl_methods]
          by_cases hheld : exists m, m ∈ d.methods ∧ m.name = method ∧ m.onPointer = true
          · cases hvia : r.viaPointer with
            | true => exact Or.inl rfl
            | false =>
                obtain ⟨m, hm, hmethod, hpointer⟩ := hheld
                have hfound : methodEntry m ∈ (d.methods.filter fun m =>
                    r.raised.viaPointer || !m.onPointer).map methodEntry :=
                  List.mem_map_of_mem (List.mem_filter.mpr ⟨hm, rfl⟩)
                apply Or.inr
                constructor
                · exact ⟨hvia, d, m, hd, hm, hmethod, hpointer⟩
                · apply Option.isSome_iff_exists.mp
                  exact List.lookup_isSome_iff.mpr ⟨_, hfound, beq_iff_eq.mpr hmethod.symm⟩
          · apply Or.inl
            rw [lookup_filter_methods, lookup_filter_methods]
            · intro m hm hmethod
              cases hpointer : m.onPointer with
              | true => exact absurd ⟨m, hm, hmethod, hpointer⟩ hheld
              | false => exact Bool.or_true _
            · intro m _ _
              rfl

/-- On the way from a declared type, the first type that has the method at all through a pointer
withholds it by value. -/
def Overtaken (s : Session) (name : TypeName) (method : String) (signature : Signature GoType) :
    Prop :=
  exists front r back, s.visitsFrom ⟨name, false⟩ = front ++ r :: back ∧
    (forall q, q ∈ front -> s.own? method q.raised = none) ∧ s.Withholds method r ∧
    s.own? method r.raised = some signature

theorem findSome?_raised {method : String} {reached : List Reached} {signature : Signature GoType}
    (h : reached.findSome? (s.own? method) = some signature) :
    reached.findSome? (fun r => s.own? method r.raised) = some signature ∨
      exists front r back other, reached = front ++ r :: back ∧
        (forall q, q ∈ front -> s.own? method q.raised = none) ∧ s.Withholds method r ∧
        s.own? method r.raised = some other := by
  induction reached with
  | nil => cases h
  | cons r rest ih =>
      rw [List.findSome?_cons] at h ⊢
      rcases s.own?_raised method r with heq | ⟨hheld, other, hother⟩
      · rw [heq]
        cases hown : s.own? method r with
        | some found =>
            rw [hown] at h
            exact Or.inl h
        | none =>
            rw [hown] at h
            rcases ih h with hsame | ⟨front, q, back, other, hsplit, hfront, hq⟩
            · exact Or.inl hsame
            · have hnone : forall q, q ∈ r :: front -> s.own? method q.raised = none :=
                List.forall_mem_cons.mpr ⟨heq.trans hown, hfront⟩
              exact Or.inr ⟨r :: front, q, back, other, congrArg (r :: ·) hsplit, hnone, hq⟩
      · exact Or.inr ⟨[], r, rest, other, rfl, List.forall_mem_nil _, hheld, hother⟩

/-!
# Values and pointers
-/

/-- The name stands for neither an alias nor an interface. -/
def Concrete (s : Session) (name : TypeName) : Prop :=
  forall d, s.typeDef? name = some d -> d.isAlias = false ∧ d.isInterface = false

variable {s} {name : TypeName}

theorem Concrete.unalias (h : s.Concrete name) : s.unalias (.named name) = .named name := by
  unfold Session.unalias aliasLimit unaliasWithin
  split
  · next d hd =>
      rw [(h d hd).1]
      rfl
  · rfl

theorem Concrete.methodSet_value (h : s.Concrete name) {d : TypeDef}
    (hd : s.typeDef? name = some d) :
    s.methodSet (.named name) = s.promotedMethods [⟨name, false⟩] := by
  unfold methodSet
  rw [h.unalias]
  unfold namedMethods
  dsimp only
  rw [hd]
  dsimp only
  rw [(h d hd).2]
  rfl

theorem Concrete.methodSet_pointer (h : s.Concrete name) {d : TypeDef}
    (hd : s.typeDef? name = some d) :
    s.methodSet (.pointer (.named name)) = s.promotedMethods [⟨name, true⟩] := by
  have hpointer : s.unalias (.pointer (.named name)) = .pointer (.named name) := rfl
  unfold methodSet
  rw [hpointer]
  unfold pointerMethods
  dsimp only
  rw [h.unalias]
  dsimp only
  rw [hd]
  dsimp only
  rw [(h d hd).2]
  rfl

/-- A value has a method that its pointer has as well, or a pointer method that the value does not
have comes before it and takes its place. -/
theorem get?_pointer_of_value (h : s.Concrete name) {method : String}
    {signature : Signature GoType}
    (hvalue : (s.methodSet (.named name)).get? method = some signature) :
    (s.methodSet (.pointer (.named name))).get? method = some signature ∨
      exists other, s.Overtaken name method other ∧
        (s.methodSet (.pointer (.named name))).get? method = some other := by
  cases hd : s.typeDef? name with
  | none =>
      unfold methodSet at hvalue
      rw [h.unalias] at hvalue
      unfold namedMethods at hvalue
      dsimp only at hvalue
      rw [hd] at hvalue
      cases hvalue
  | some d =>
      have hraised : (s.promotedMethods [⟨name, true⟩]).get? method =
          (s.visitsFrom ⟨name, false⟩).findSome? fun r => s.own? method r.raised := by
        rw [get?_promotedMethods]
        unfold visitsFrom
        rw [show [⟨name, true⟩] = [(⟨name, false⟩ : Reached)].map Reached.raised from rfl,
          visits_raised, List.findSome?_map]
        rfl
      rw [h.methodSet_value hd, get?_promotedMethods] at hvalue
      rw [h.methodSet_pointer hd, hraised]
      rcases s.findSome?_raised hvalue with hsame | ⟨front, r, back, other, hsplit, hfront, hr⟩
      · exact Or.inl hsame
      · have hfirst := List.findSome?_eq_some_iff.mpr ⟨front, r, back, hsplit, hr.2, hfront⟩
        exact Or.inr ⟨other, ⟨front, r, back, hsplit, hfront, hr⟩, hfirst⟩

/-- How the methods of a type and of a pointer to it compare. -/
structure Contained (s : Session) (name : TypeName) : Prop where
  methods : forall method signature,
    (s.methodSet (.named name)).get? method = some signature ->
      (s.methodSet (.pointer (.named name))).get? method = some signature ∨
        exists other, s.Overtaken name method other ∧
          (s.methodSet (.pointer (.named name))).get? method = some other
  satisfied : forall required, s.satisfies (.named name) required = true ->
    s.satisfies (.pointer (.named name)) required = true ∨
      exists method other, required.contains method = true ∧ s.Overtaken name method other

/-- What a value has and satisfies, a pointer to it has and satisfies, except where a pointer
method that the value does not have is come to first. -/
theorem contained_of_concrete (s : Session) (name : TypeName) (h : s.Concrete name) :
    s.Contained name where
  methods _ _ hvalue := get?_pointer_of_value h hvalue
  satisfied required hvalue := by
    by_cases hnone : exists method other, required.contains method = true ∧
        s.Overtaken name method other
    · exact Or.inr hnone
    · apply Or.inl
      unfold satisfies at hvalue ⊢
      apply List.all_eq_true.mpr
      intro entry hentry
      have hall := List.all_eq_true.mp hvalue entry hentry
      dsimp only at hall ⊢
      cases hfound : (s.methodSet (.named name)).get? entry.1 with
      | none =>
          rw [hfound] at hall
          cases hall
      | some signature =>
          rw [hfound] at hall
          rcases get?_pointer_of_value h hfound with hsame | ⟨other, hother, _⟩
          · rw [hsame]
            exact hall
          · have hkey : required.contains entry.1 = true :=
              Table.contains_iff.mpr ⟨entry.2, Table.mem_entries_iff.mp hentry⟩
            exact absurd ⟨entry.1, other, hkey, hother⟩ hnone

/-!
# A value method behind a pointer method
-/

/-- The type `T` has `M()` on its pointer and embeds `D`, which has `M(int)`. -/
def crossTree : FileTree :=
  let source := "package a\n\ntype D int\n\nfunc (D) M(int) \x7b\x7d\n\n" ++
    "type T struct\x7b D \x7d\n\nfunc (*T) M() \x7b\x7d\n\n" ++
    "type I interface\x7b M(int) \x7d\n"
  ⟨[(["w", "a", "a.go"], Text.encode source)], [], []⟩

def crossSession : Session :=
  after (goSetup crossTree ⟨some ⟨"/w"⟩, none, "vendor"⟩ ⟨false, false⟩) [.resolve "a"]

def writtenMethod (s : Session) (type : GoType) : Option String :=
  ((s.methodSet type).get? "M").map fun signature => (GoType.func signature).text

theorem contained_of_concrete_cross :
    crossSession.Concrete (.declared "a" "T") ∧ crossSession.Contained (.declared "a" "T") := by
  have hdef : ((crossSession.typeDef? (.declared "a" "T")).map fun d =>
      (d.isAlias, d.isInterface)) = some (false, false) := by
    decide +kernel
  have hconcrete : crossSession.Concrete (.declared "a" "T") := by
    intro d hd
    rw [hd] at hdef
    exact Prod.mk.inj (Option.some.inj hdef)
  exact ⟨hconcrete, contained_of_concrete crossSession (.declared "a" "T") hconcrete⟩

/-- A value of `T` has the method `M(int)` that it is promoted, a pointer to it has `M()`; so only
the value satisfies the interface that asks for `M(int)`. -/
theorem value_satisfies_alone :
    crossSession.writtenMethod (.named (.declared "a" "T")) = some "func(int)" ∧
    crossSession.writtenMethod (.pointer (.named (.declared "a" "T"))) = some "func()" ∧
    exists required,
      crossSession.interfaceMethods? (.named (.declared "a" "I")) = some required ∧
      crossSession.satisfies (.named (.declared "a" "T")) required = true ∧
      crossSession.satisfies (.pointer (.named (.declared "a" "T"))) required = false := by
  have hrun : (crossSession.writtenMethod (.named (.declared "a" "T")),
      crossSession.writtenMethod (.pointer (.named (.declared "a" "T"))),
      (crossSession.interfaceMethods? (.named (.declared "a" "I"))).map fun required =>
        (crossSession.satisfies (.named (.declared "a" "T")) required,
          crossSession.satisfies (.pointer (.named (.declared "a" "T"))) required)) =
      (some "func(int)", some "func()", some (true, false)) := by
    decide +kernel
  obtain ⟨hvalue, hrest⟩ := Prod.mk.inj hrun
  obtain ⟨hpointer, hboth⟩ := Prod.mk.inj hrest
  obtain ⟨required, hrequired, hsatisfies⟩ := Option.map_eq_some_iff.mp hboth
  exact ⟨hvalue, hpointer, required, hrequired, Prod.mk.inj hsatisfies⟩

end Session
end GoAtlas
