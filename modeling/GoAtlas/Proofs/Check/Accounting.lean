import GoAtlas.Proofs.Check.Findings
import GoAtlas.Proofs.Check.Onward

/-!
# What becomes of every declaration

A check loses no declaration and counts none twice.  Its types are those that claim their names,
its constants come from those that do, and one that is missing is complained about.  A method is
with its type, or there is a complaint that it has no place there.
-/

namespace GoAtlas

open Scope (Placed placed_nil any_iff_placed slot)

/-!
# Methods
-/

/-- A method declaration that has found its type. -/
structure Attachment where
  file : String
  decl : Source.MethodDecl
  receiver : Source.Receiver

namespace Attachment

def key (a : Attachment) : String × String := (a.receiver.base, a.decl.name.text)

def redeclaration (a : Attachment) : TypeError :=
  ⟨.methodRedeclared a.receiver.base a.decl.name.text, false, some a.file, some a.decl.name.line⟩

def method (a : Attachment) (signature : Signature GoType) : Method :=
  ⟨a.decl.name.text, a.receiver.isPointer, signature, some (Scope.spanOf a.file a.decl.extent)⟩

def Shows (a : Attachment) (m : Method) : Prop := exists signature, m = a.method signature

end Attachment

/-- What is to become of a method declaration. -/
inductive Placement where
  /-- It has no receiver, or the receiver is no type of the package. -/
  | misplaced (e : TypeError)
  | blank
  | attached (a : Attachment)

namespace Placement

def attachment? : Placement -> Option Attachment
  | attached a => some a
  | _ => none

def faultsAfter : List (String × String) -> List Placement -> List TypeError
  | _, [] => []
  | seen, misplaced e :: rest => e :: faultsAfter seen rest
  | seen, blank :: rest => faultsAfter seen rest
  | seen, attached a :: rest =>
      if a.key ∈ seen then a.redeclaration :: faultsAfter seen rest
      else faultsAfter (a.key :: seen) rest

end Placement

def MethodSource.placement (isLocal : String -> Bool) (m : MethodSource) : Placement :=
  match Source.receiverType? m.decl.receiver with
  | none => .misplaced ⟨.noReceiver, false, some m.file, some m.decl.extent.line⟩
  | some type =>
      let r := Source.Receiver.ofType type
      if !isLocal r.base then
        .misplaced ⟨.foreignReceiver r.base, false, some m.file, some type.extent.line⟩
      else if m.decl.name.text == "_" then .blank
      else .attached ⟨m.file, m.decl, r⟩

theorem MethodSource.isLocal_of_placement {isLocal : String -> Bool} {m : MethodSource}
    {a : Attachment} (h : m.placement isLocal = .attached a) : isLocal a.receiver.base = true := by
  unfold placement at h
  split at h
  · cases h
  · next type _ =>
      dsimp only at h
      split at h
      · cases h
      · next hlocal =>
          split at h
          · cases h
          · cases h
            simpa using hlocal

def Attached (done : List Attachment) (methods : Table (List Method)) : Prop :=
  exists added : List (String × Method), Placed added methods ∧
    List.Forall₂ (fun a e => e.1 = a.receiver.base ∧ a.Shows e.2) done added

namespace Attached

variable {done : List Attachment} {methods : Table (List Method)}

theorem nil : Attached [] Table.empty := ⟨[], placed_nil, .nil⟩

theorem any_iff (h : Attached done methods) (a : Attachment) (signature : Signature GoType) :
    (((methods.get? a.receiver.base).getD []).any fun n => n.name == (a.method signature).name) =
      true ↔ a.key ∈ done.map Attachment.key := by
  obtain ⟨added, hplaced, hadded⟩ := h
  have hslots : added.map slot = done.map Attachment.key := by
    refine map_eq_map_of_forall₂ ?_ hadded
    rintro b e ⟨hbase, signature, heq⟩
    exact Prod.ext hbase (congrArg Method.name heq)
  rw [← hslots]
  exact any_iff_placed hplaced (a.receiver.base, a.method signature)

theorem insert (h : Attached done methods) (a : Attachment) (signature : Signature GoType) :
    Attached (done ++ [a]) (methods.insert a.receiver.base
      ((methods.get? a.receiver.base).getD [] ++ [a.method signature])) := by
  obtain ⟨added, hplaced, hadded⟩ := h
  refine ⟨added ++ [(a.receiver.base, a.method signature)], hplaced.insert _, ?_⟩
  exact List.rel_append hadded (.cons ⟨rfl, signature, rfl⟩ .nil)

theorem forall₂_methods (h : Attached done methods) (base : String) :
    List.Forall₂ Attachment.Shows (done.filter fun a => a.receiver.base == base)
      ((methods.get? base).getD []) := by
  obtain ⟨added, hplaced, hadded⟩ := h
  rw [hplaced base]
  clear hplaced
  induction hadded with
  | nil => exact .nil
  | @cons a e done added hae _ ih =>
      rw [List.filter_cons, List.filter_cons, hae.1]
      split
      · exact .cons hae.2 ih
      · exact ih

end Attached

namespace Scope

variable {sc : Scope} {answers : Answers}

/-- What a method declaration does to the methods so far. -/
theorem checkMethodWith_cases (answers : Answers) {m : MethodSource} (hm : m ∈ sc.methods)
    (methods : Table (List Method)) (p : Progress) :
    (exists e, m.placement sc.isLocalType = .misplaced e ∧ e.isBooked = true ∧
      (sc.checkMethodWith sc.links methods m).outcome answers p =
        (methods, { p with errors := p.errors ++ [e] })) ∨
    (m.placement sc.isLocalType = .blank ∧
      (sc.checkMethodWith sc.links methods m).outcome answers p = (methods, p)) ∨
    exists a signature q, m.placement sc.isLocalType = .attached a ∧ sc.Onward p q ∧
      (sc.checkMethodWith sc.links methods m).outcome answers p =
        (addToType a.file a.decl.name.line a.receiver.base (a.method signature) methods).outcome
          answers q := by
  unfold checkMethodWith MethodSource.placement
  dsimp only
  cases Source.receiverType? m.decl.receiver with
  | none => exact Or.inl ⟨_, rfl, rfl, rfl⟩
  | some type =>
      dsimp only
      split
      · exact Or.inl ⟨_, rfl, rfl, rfl⟩
      · split
        · exact Or.inr (Or.inl ⟨rfl, rfl⟩)
        · have htrail :=
            trail_signatureWith sc.setting_books hm (Source.Receiver.ofType type).tparams
          have honward := ((carries_onward (sc.onward_links answers)).trail htrail p).2
          exact Or.inr (Or.inr ⟨_, _, _, rfl, honward, Resolve.outcome_bind _ _ _ _⟩)

/-- What the methods come to, after some types had methods already. -/
structure Attaches (sc : Scope) (seen : List (String × String)) (done : List Attachment)
    (placements : List Placement) (p : Progress) (r : Table (List Method) × Progress) : Prop where
  faults : r.2.errors.filter TypeError.isBooked =
    p.errors.filter TypeError.isBooked ++ Placement.faultsAfter seen placements
  kept : p.errors ⊆ r.2.errors
  explained : sc.Explained p -> sc.Explained r.2
  attached : Attached (done ++
    firstsAfter Attachment.key seen (placements.filterMap Placement.attachment?)) r.1

theorem Attaches.of_onward {seen : List (String × String)} {done : List Attachment}
    {placements : List Placement} {p q : Progress} {r : Table (List Method) × Progress}
    (h : sc.Attaches seen done placements q r) (hpq : sc.Onward p q) :
    sc.Attaches seen done placements p r where
  faults := by rw [h.faults, hpq.unbooked.filter_eq]
  kept := List.Subset.trans hpq.unbooked.subset h.kept
  explained hp := h.explained (hpq.explained hp)
  attached := h.attached

theorem Attaches.of_fault {seen : List (String × String)} {done : List Attachment}
    {placements more : List Placement} {p : Progress} {r : Table (List Method) × Progress}
    {e : TypeError} (he : e.isBooked = true)
    (h : sc.Attaches seen done placements { p with errors := p.errors ++ [e] } r)
    (hfaults : Placement.faultsAfter seen more = e :: Placement.faultsAfter seen placements)
    (hfirsts : firstsAfter Attachment.key seen (more.filterMap Placement.attachment?) =
      firstsAfter Attachment.key seen (placements.filterMap Placement.attachment?)) :
    sc.Attaches seen done more p r where
  faults := by
    rw [h.faults, hfaults, List.filter_append, List.filter_cons_of_pos he, List.filter_nil,
      List.append_assoc]
    rfl
  kept := List.Subset.trans (List.subset_append_left _ _) h.kept
  explained hp := h.explained fun k a ha => (hp k a ha).mono (List.subset_append_left _ _)
  attached := by
    rw [hfirsts]
    exact h.attached

theorem attaches_foldlM (sc : Scope) (answers : Answers) {methods : List MethodSource}
    (hmem : methods ⊆ sc.methods)
    {seen : List (String × String)} {done : List Attachment} {table : Table (List Method)}
    (hseen : forall key, key ∈ seen ↔ key ∈ done.map Attachment.key)
    (htable : Attached done table) (p : Progress) :
    sc.Attaches seen done (methods.map (MethodSource.placement sc.isLocalType)) p
      ((methods.foldlM (sc.checkMethodWith sc.links) table).outcome answers p) := by
  induction methods generalizing seen done table p with
  | nil =>
      exact ⟨(List.append_nil _).symm, List.Subset.refl _, id, (List.append_nil done).symm ▸ htable⟩
  | cons m rest ih =>
      obtain ⟨hm, hrest⟩ := List.cons_subset.mp hmem
      rw [List.foldlM_cons, Resolve.outcome_bind, List.map_cons]
      rcases sc.checkMethodWith_cases answers hm table p with
        ⟨e, hplace, hbooked, hstep⟩ | ⟨hplace, hstep⟩ | ⟨a, signature, q, hplace, hpq, hstep⟩
      · rw [hplace, hstep]
        exact Attaches.of_fault hbooked (ih hrest hseen htable _) rfl rfl
      · rw [hplace, hstep]
        obtain ⟨hfaults, hkept, hexplained, hattached⟩ := ih hrest hseen htable p
        exact ⟨hfaults, hkept, hexplained, hattached⟩
      · rw [hplace, hstep]
        refine Attaches.of_onward ?_ hpq
        unfold addToType
        dsimp only
        by_cases hkey : a.key ∈ seen
        · rw [if_pos ((htable.any_iff a signature).mpr ((hseen _).mp hkey))]
          refine Attaches.of_fault rfl (ih hrest hseen htable _) (if_pos hkey) ?_
          exact if_pos hkey
        · rw [if_neg fun h => hkey ((hseen _).mpr ((htable.any_iff a signature).mp h))]
          have hseen' : forall key, key ∈ a.key :: seen ↔
              key ∈ (done ++ [a]).map Attachment.key := by
            intro key
            rw [List.map_append, List.mem_append, List.mem_cons, hseen, or_comm]
            exact or_congr_right List.mem_singleton.symm
          have hnext := ih hrest hseen' (htable.insert a signature) q
          exact
            { faults := hnext.faults.trans (congrArg _ (if_neg hkey).symm)
              kept := hnext.kept
              explained := hnext.explained
              attached := by
                have hfirsts : firstsAfter Attachment.key seen
                    ((.attached a :: rest.map (MethodSource.placement sc.isLocalType)).filterMap
                      Placement.attachment?) = a :: firstsAfter Attachment.key (a.key :: seen)
                        ((rest.map (MethodSource.placement sc.isLocalType)).filterMap
                          Placement.attachment?) := if_neg hkey
                rw [hfirsts, List.append_cons]
                exact hnext.attached }

/-!
# The second pass
-/

def placements (sc : Scope) : List Placement :=
  sc.methods.map (MethodSource.placement sc.isLocalType)

def attached (sc : Scope) : List Attachment :=
  firstsAfter Attachment.key [] (sc.placements.filterMap Placement.attachment?)

theorem isLocalType_of_attached {a : Attachment} (h : a ∈ sc.attached) :
    sc.isLocalType a.receiver.base = true := by
  obtain ⟨place, hplace, ha⟩ := List.mem_filterMap.mp (mem_of_mem_firstsAfter h)
  obtain ⟨m, _, rfl⟩ := List.mem_map.mp hplace
  refine MethodSource.isLocal_of_placement (m := m) ?_
  unfold Placement.attachment? at ha
  split at ha
  · next b hb =>
      cases ha
      exact hb
  · cases ha

end Scope

structure TypeDef.Realizes (path : String) (isLocal : String -> Bool)
    (attached : List Attachment) (name : String) (d : TypeDef) : Prop where
  named : d.name = .declared path name
  isAlias : d.isAlias = !isLocal name
  methods : List.Forall₂ Attachment.Shows
    (attached.filter fun a => a.receiver.base == name) d.methods

def ConstDecl.Settled (d : ConstDecl) (c : Option ConstDef) (errors : List TypeError) : Prop :=
  (forall x, c = some x -> x.name = d.name) ∧ (c = none -> d.Accused errors)

namespace Scope

variable {sc : Scope} {answers : Answers}

theorem onward_typeDefWith {methods : Table (List Method)} (hmethods : Attached sc.attached methods)
    {name : String} {decl : TypeDecl} (hdecl : sc.types.get? name = some decl) (p : Progress) :
    sc.Onward p ((sc.typeDefWith sc.links methods name decl).outcome answers p).2 ∧
      ((sc.typeDefWith sc.links methods name decl).outcome answers p).1.Realizes sc.path
        sc.isLocalType sc.attached name := by
  have hlocal : sc.isLocalType name = !decl.spec.isAlias := by
    unfold isLocalType
    rw [hdecl]
  unfold typeDefWith
  dsimp only
  split
  · next halias =>
      rw [Resolve.outcome_bind]
      refine ⟨sc.onward_links answers (.alias name) p, rfl, by rw [hlocal, halias]; rfl, ?_⟩
      -- No method is attached to an alias.
      have hnone : sc.attached.filter (fun a => a.receiver.base == name) = [] := by
        rw [List.filter_eq_nil_iff]
        intro a ha hbase
        have hattached := isLocalType_of_attached ha
        rw [beq_iff_eq.mp hbase, hlocal, halias] at hattached
        cases hattached
      rw [hnone]
      exact .nil
  · next hproper =>
      rw [Resolve.outcome_bind]
      have hown : false = !sc.isLocalType name := by
        rw [hlocal, Bool.eq_false_iff.mpr hproper]
        rfl
      refine ⟨sc.onward_links answers (.type name) p, rfl, hown, ?_⟩
      exact hmethods.forall₂_methods name

theorem onward_constDefWith {i : Nat} {d : ConstDecl} (hd : sc.consts[i]? = some d) {p : Progress}
    (hp : sc.Explained p) :
    sc.Onward p ((constDefWith sc.links i d).outcome answers p).2 ∧
      d.Settled ((constDefWith sc.links i d).outcome answers p).1
        ((constDefWith sc.links i d).outcome answers p).2.errors := by
  have honward := sc.onward_links answers (.const i) p
  have haccused := accused_of_const answers hp hd
  unfold constDefWith
  rw [Resolve.outcome_bind]
  split
  · refine ⟨honward, ?_, fun hnone => (by cases hnone)⟩
    intro x hx
    cases hx
    rfl
  · next hnone => exact ⟨honward, fun x hx => (by cases hx), fun _ => haccused hnone⟩

theorem onward_typeDefs (answers : Answers) {methods : Table (List Method)}
    (hmethods : Attached sc.attached methods) {p : Progress} (hp : sc.Explained p) :
    let r := (sc.types.entries.mapM fun entry =>
      sc.typeDefWith sc.links methods entry.1 entry.2).outcome answers p
    sc.Onward p r.2 ∧
      List.Forall₂ (fun entry => TypeDef.Realizes sc.path sc.isLocalType sc.attached entry.1)
        sc.types.entries r.1 := by
  refine sc.onward_mapM answers (Q := fun (entry : String × TypeDecl) d _ =>
    TypeDef.Realizes sc.path sc.isLocalType sc.attached entry.1 d) (fun _ _ _ _ _ h => h)
    (fun entry q hentry _ => ?_) hp
  exact onward_typeDefWith hmethods (Table.mem_entries_iff.mp hentry) q

theorem onward_constDefs (answers : Answers) {p : Progress} (hp : sc.Explained p) :
    let r := (sc.consts.zipIdx.mapM fun entry =>
      constDefWith sc.links entry.2 entry.1).outcome answers p
    sc.Onward p r.2 ∧
      List.Forall₂ (fun entry c => entry.1.Settled c r.2.errors) sc.consts.zipIdx r.1 := by
  refine sc.onward_mapM answers (Q := fun (entry : ConstDecl × Nat) c errors =>
    entry.1.Settled c errors) ?_ ?_ hp
  · exact fun _ _ _ _ hmore h => ⟨h.1, fun hnone => (h.2 hnone).mono hmore⟩
  · intro entry q hentry hq
    exact onward_constDefWith (List.mem_zipIdx_iff_getElem?.mp hentry) hq

/-- What the second pass makes of the declarations of its scope. -/
structure Delivers (sc : Scope) (p : Progress) (r : CheckedPackage × Progress) : Prop where
  faults : r.2.errors.filter TypeError.isBooked =
    p.errors.filter TypeError.isBooked ++ Placement.faultsAfter [] sc.placements
  kept : p.errors ⊆ r.2.errors
  types : List.Forall₂ (TypeDef.Realizes sc.path sc.isLocalType sc.attached) sc.types.keys r.1.types
  consts : exists found, r.1.consts = found.filterMap id ∧
    List.Forall₂ (fun d c => ConstDecl.Settled d c r.2.errors) sc.consts found

theorem delivers_definitions (sc : Scope) (answers : Answers) (name : String) {p : Progress}
    (hp : sc.Explained p) : sc.Delivers p ((sc.definitions name).outcome answers p) := by
  rw [definitions_eq]
  unfold definitionsWith
  simp only [Resolve.outcome_bind, Resolve.outcome_pure]
  have hmethods := sc.attaches_foldlM answers (List.Subset.refl sc.methods) (fun _ => Iff.rfl)
    Attached.nil p
  have htypes := onward_typeDefs answers hmethods.attached (hmethods.explained hp)
  have hconsts := sc.onward_constDefs answers (htypes.1.explained (hmethods.explained hp))
  have himports : forall q, sc.Onward q (sc.checkImports.outcome answers q).2 := fun q =>
    ((carries_onward (sc.onward_links answers)).trail
      (trail_checkImports sc sc sc fun _ _ => rfl) q).2
  have honward := (htypes.1.trans hconsts.1).trans (himports _)
  refine ⟨?_, ?_, List.forall₂_map_left_iff.mpr htypes.2, _, rfl, ?_⟩
  · exact honward.unbooked.filter_eq.trans hmethods.faults
  · exact List.Subset.trans hmethods.kept honward.unbooked.subset
  · have hsettled := (List.forall₂_map_left_iff (R := fun d c => ConstDecl.Settled d c _)
      (f := Prod.fst)).mpr hconsts.2
    rw [List.zipIdx_map_fst] at hsettled
    refine hsettled.imp fun d c h => ⟨h.1, fun hnone => (h.2 hnone).mono ?_⟩
    exact (himports _).unbooked.subset

end Scope
/-!
# The whole package
-/

namespace LoadedPackage

def isOwnType (p : LoadedPackage) (name : String) : Bool :=
  p.claimed.any fun d => d.key == name && d.type?.any fun t => !t.spec.isAlias

theorem isOwnType_iff (p : LoadedPackage) {name : String} : p.isOwnType name = true ↔
    exists d t, d ∈ p.claimed ∧ d.key = name ∧ d.type? = some t ∧ (!t.spec.isAlias) = true := by
  unfold isOwnType
  rw [List.any_eq_true]
  constructor
  · rintro ⟨d, hd, hown⟩
    rw [Bool.and_eq_true, beq_iff_eq] at hown
    cases ht : d.type? with
    | none =>
        rw [ht] at hown
        cases hown.2
    | some t =>
        rw [ht] at hown
        exact ⟨d, t, hd, hown.1, ht, hown.2⟩
  · rintro ⟨d, t, hd, hkey, ht, hproper⟩
    refine ⟨d, hd, ?_⟩
    rw [Bool.and_eq_true, beq_iff_eq, ht]
    exact ⟨hkey, hproper⟩

def constants (p : LoadedPackage) : List ConstDecl :=
  p.claimed.filterMap TopDeclaration.const?

def placements (p : LoadedPackage) : List Placement :=
  (p.items.filterMap Item.method?).map (MethodSource.placement p.isOwnType)

def attached (p : LoadedPackage) : List Attachment :=
  firstsAfter Attachment.key [] (p.placements.filterMap Placement.attachment?)

end LoadedPackage

/-- The outcome accounts for every declaration of the package. -/
structure Accounts (p : LoadedPackage) (o : CheckOutcome) : Prop where
  /-- Each declaration of a name that is taken is complained about once, and so is each method
  that no type gets. -/
  booked : o.errors.filter TypeError.isBooked =
    p.repeated.map TopDeclaration.redeclaration ++ Placement.faultsAfter [] p.placements
  /-- The types are those that claim their names, sorted, with their methods. -/
  types : exists names : List String, names.Pairwise (· < ·) ∧
    (forall name, name ∈ names ↔ exists d t, d ∈ p.claimed ∧ d.key = name ∧ d.type? = some t) ∧
    List.Forall₂ (TypeDef.Realizes p.importPath p.isOwnType p.attached) names o.package.types
  /-- Every method that is attached is attached to a type of the package. -/
  placed : forall a, a ∈ p.attached -> exists d, d ∈ o.package.types ∧
    d.name = .declared p.importPath a.receiver.base ∧ d.isAlias = false
  /-- Constants come from those that claim their names, in order. -/
  constants : (o.package.consts.map ConstDef.name).Sublist (p.constants.map ConstDecl.name)
  once : (o.package.consts.map ConstDef.name).Nodup
  /-- A constant that is missing is complained about where it is declared. -/
  missing : forall d, d ∈ p.constants -> d.name ∉ o.package.consts.map ConstDef.name ->
    exists complaint, ⟨complaint, false, some d.file, some d.spec.line⟩ ∈ o.errors ∧
      (complaint = .missingValue ∨ exists cause, complaint = .invalidConstant d.name cause)
  /-- No name is that of a type and of a constant. -/
  apart : forall d c, d ∈ o.package.types -> c ∈ o.package.consts ->
    d.name ≠ .declared p.importPath c.name

section FirstPass

variable (p : LoadedPackage) (answers : Answers)

theorem get?_types_collect {name : String} {t : TypeDecl} :
    ((collect p).under answers).scope.types.get? name = some t ↔
      exists d, d ∈ p.claimed ∧ d.key = name ∧ d.type? = some t := by
  rw [(Collection.booked_collect p answers).types]
  constructor
  · rintro (hstart | hclaimed)
    · cases hstart
    · exact hclaimed
  · exact Or.inr

theorem consts_collect : ((collect p).under answers).scope.consts = p.constants :=
  (Collection.booked_collect p answers).consts

theorem isLocalType_collect :
    ((collect p).under answers).scope.isLocalType = p.isOwnType := by
  funext name
  rw [Bool.eq_iff_iff, p.isOwnType_iff]
  unfold Scope.isLocalType
  constructor
  · intro hlocal
    split at hlocal
    · next t ht =>
        obtain ⟨d, hd, hkey, htype⟩ := (get?_types_collect p answers).mp ht
        exact ⟨d, t, hd, hkey, htype, hlocal⟩
    · cases hlocal
  · rintro ⟨d, t, hd, hkey, htype, hproper⟩
    rw [(get?_types_collect p answers).mpr ⟨d, hd, hkey, htype⟩]
    exact hproper

theorem placements_collect : ((collect p).under answers).scope.placements = p.placements := by
  unfold Scope.placements LoadedPackage.placements
  rw [isLocalType_collect]
  exact congrArg _ (Collection.booked_collect p answers).methods

theorem attached_collect : ((collect p).under answers).scope.attached = p.attached := by
  unfold Scope.attached LoadedPackage.attached
  rw [placements_collect]

theorem delivers_checkGo : ((collect p).under answers).scope.Delivers
    ((collect p).under answers).progress (definedUnder answers p) := by
  refine Scope.delivers_definitions _ answers p.name ?_
  intro k a ha
  match k with
  | .alias _ | .type _ | .const _ => cases ha

end FirstPass

theorem eq_of_mem_claimed {p : LoadedPackage} {d e : TopDeclaration} (hd : d ∈ p.claimed)
    (he : e ∈ p.claimed) (hkey : d.key = e.key) : d = e :=
  List.inj_on_of_nodup_map nodup_keys_firstsAfter hd he hkey

/-- A constant that claims its name and has no expression stands in a line that is complained
about. -/
theorem missingValue_of_mem {p : LoadedPackage} {d : ConstDecl} (hd : d ∈ p.constants)
    (hexpr : d.expr = none) (answers : Answers) :
    ⟨.missingValue, false, some d.file, some d.spec.line⟩ ∈ ((collect p).under answers).errors := by
  obtain ⟨⟨file, y, what⟩, hx, hconst⟩ := List.mem_filterMap.mp hd
  have hitem := LoadedPackage.mem_items_of_claimed hx
  cases what with
  | const spec type expr iota =>
      cases hconst
      cases hexpr
      exact Collection.error_of_fault answers (Item.fault_mem_items hitem)
  | _ => cases hconst

theorem types_checkGo (p : LoadedPackage) (answers : Answers) :
    List.Forall₂ (TypeDef.Realizes p.importPath p.isOwnType p.attached)
      ((collect p).under answers).scope.types.keys (definedUnder answers p).1.types := by
  have htypes := (delivers_checkGo p answers).types
  rw [Collection.path_collect, isLocalType_collect, attached_collect] at htypes
  exact htypes

theorem placed_checkGo {p : LoadedPackage} (answers : Answers) {a : Attachment}
    (h : a ∈ p.attached) : exists d, d ∈ (definedUnder answers p).1.types ∧
      d.name = .declared p.importPath a.receiver.base ∧ d.isAlias = false := by
  have hown : p.isOwnType a.receiver.base = true := by
    rw [← attached_collect p answers] at h
    rw [← isLocalType_collect p answers]
    exact Scope.isLocalType_of_attached h
  obtain ⟨x, t, hx, hkey, ht, _⟩ := p.isOwnType_iff.mp hown
  have hmem : a.receiver.base ∈ ((collect p).under answers).scope.types.keys :=
    Table.mem_keys_iff.mpr ⟨t, (get?_types_collect p answers).mpr ⟨x, hx, hkey, ht⟩⟩
  obtain ⟨d, hd, hrealizes⟩ := exists_mem_right (types_checkGo p answers) hmem
  exact ⟨d, hd, hrealizes.named, hrealizes.isAlias.trans (by rw [hown]; rfl)⟩

theorem constants_checkGo (p : LoadedPackage) (answers : Answers) :
    ((definedUnder answers p).1.consts.map ConstDef.name).Sublist
      (p.constants.map ConstDecl.name) ∧
    forall d, d ∈ p.constants ->
      d.name ∉ (definedUnder answers p).1.consts.map ConstDef.name ->
        d.Accused (definedUnder answers p).2.errors := by
  obtain ⟨found, hfound, hsettled⟩ := (delivers_checkGo p answers).consts
  rw [consts_collect] at hsettled
  rw [hfound]
  refine ⟨Scope.sublist_names (fun _ _ h => h.1 _ rfl) hsettled, fun d hd hmissing => ?_⟩
  obtain ⟨c, hc, hsame, haccused⟩ := exists_mem_right hsettled hd
  cases c with
  | none => exact haccused rfl
  | some x =>
      have hx : x ∈ found.filterMap id := List.mem_filterMap.mpr ⟨some x, hc, rfl⟩
      exact absurd (hsame x rfl ▸ List.mem_map_of_mem hx) hmissing

theorem sublist_keys (decls : List TopDeclaration) :
    ((decls.filterMap TopDeclaration.const?).map ConstDecl.name).Sublist
      (decls.map TopDeclaration.key) := by
  induction decls with
  | nil => exact List.Sublist.refl _
  | cons d rest ih =>
      obtain ⟨file, name, what⟩ := d
      cases what with
      | const spec type expr iota => exact ih.cons_cons _
      | _ => exact ih.cons _

theorem apart_checkGo {p : LoadedPackage} (answers : Answers) {d : TypeDef} {c : ConstDef}
    (hd : d ∈ (definedUnder answers p).1.types) (hc : c ∈ (definedUnder answers p).1.consts) :
    d.name ≠ .declared p.importPath c.name := by
  intro heq
  obtain ⟨name, hname, hrealizes⟩ := exists_mem_left (types_checkGo p answers) hd
  cases hrealizes.named.symm.trans heq
  obtain ⟨t, ht⟩ := Table.mem_keys_iff.mp hname
  obtain ⟨x, hx, hkey, htype⟩ := (get?_types_collect p answers).mp ht
  have hconst := (constants_checkGo p answers).1.subset (List.mem_map_of_mem hc)
  obtain ⟨e, he, hsame⟩ := List.mem_map.mp hconst
  obtain ⟨y, hy, hy'⟩ := List.mem_filterMap.mp he
  -- The type and the constant have the same declaration.
  have hkey' : y.key = e.name := by
    unfold TopDeclaration.const? at hy'
    split at hy'
    · cases hy'
      rfl
    · cases hy'
  cases eq_of_mem_claimed hx hy (hkey.trans (hsame.symm.trans hkey'.symm))
  unfold TopDeclaration.type? at htype
  unfold TopDeclaration.const? at hy'
  split at htype
  · next hwhat =>
      rw [hwhat] at hy'
      cases hy'
  · cases htype

theorem nodup_constants (p : LoadedPackage) : (p.constants.map ConstDecl.name).Nodup := by
  have hnodup : (p.claimed.map TopDeclaration.key).Nodup := nodup_keys_firstsAfter
  exact hnodup.sublist (sublist_keys p.claimed)

/-- Every check accounts for the declarations of its package. -/
theorem accounts_checkGo {σ : Type} (p : LoadedPackage) (importer : String -> σ -> Answer × σ)
    (s : σ) : Accounts p ((checkGo p).run importer s).1 := by
  obtain ⟨answers, hrun, _⟩ := Inquiry.under_of_run importer
    (fun q => .error (.packageNotFound q)) (checkGo p) s (once_checkGo p)
  rw [hrun, under_checkGo]
  have hdelivers := delivers_checkGo p answers
  obtain ⟨hsublist, haccused⟩ := constants_checkGo p answers
  constructor
  · rw [hdelivers.faults, placements_collect]
    exact congrArg (· ++ _) (Collection.booked_collect p answers).redeclared
  · refine ⟨((collect p).under answers).scope.types.keys, List.pairwise_map.mpr (Table.sorted _),
      fun name => ?_, types_checkGo p answers⟩
    rw [Table.mem_keys_iff, exists_comm]
    exact exists_congr fun t => get?_types_collect p answers
  · exact fun a ha => placed_checkGo answers ha
  · exact hsublist
  · exact (nodup_constants p).sublist hsublist
  · intro d hd hmissing
    rcases haccused d hd hmissing with hexpr | ⟨cause, hcause⟩
    · exact ⟨_, hdelivers.kept (missingValue_of_mem hd hexpr answers), Or.inl rfl⟩
    · exact ⟨_, hcause, Or.inr ⟨cause, rfl⟩⟩
  · exact fun d c hd hc => apart_checkGo answers hd hc

/-- A comma counts as a name, and of two names before two values the second gets none. -/
theorem comma_is_constant :
    let o := (checkGo (.ofText "package p\n\nconst A, B = 1, 2\n")).under
      fun q => .error (.packageNotFound q)
    o.package.consts.map ConstDef.name = ["A", ","] ∧
      o.errors.map TypeError.text = ["a.go:3: missing init expr for const declaration"] := by
  decide +kernel

end GoAtlas
