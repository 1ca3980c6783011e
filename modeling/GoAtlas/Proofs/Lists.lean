import Mathlib.Data.List.Forall2
import Mathlib.Data.List.Perm.Basic

/-!
# Lists as maps and up to order

A list whose elements have distinct keys is a map.  Lists are compared element by element, in
order or in any order.
-/

namespace GoAtlas

section Matching

variable {α β : Type} {key : α -> String} {content : α -> β} {xs ys : List α}

def Matching (key : α -> String) (content : α -> β) (xs ys : List α) : Prop :=
  forall x, x ∈ xs -> exists y, y ∈ ys ∧ key y = key x ∧ content y = content x

theorem find?_of_mem (hnodup : (ys.map key).Nodup) {y : α} (h : y ∈ ys) :
    ys.find? (fun x => key x == key y) = some y := by
  induction ys with
  | nil => cases h
  | cons first rest ih =>
      rw [List.map_cons, List.nodup_cons] at hnodup
      rcases List.mem_cons.mp h with rfl | hrest
      · exact List.find?_cons_of_pos (beq_iff_eq.mpr rfl)
      · have hne : ¬ (key first == key y) = true := by
          intro heq
          exact hnodup.1 (beq_iff_eq.mp heq ▸ List.mem_map_of_mem hrest)
        rw [List.find?_cons_of_neg (p := fun x => key x == key y) hne]
        exact ih hnodup.2 hrest

theorem map_find?_eq (hxs : (xs.map key).Nodup) (hys : (ys.map key).Nodup)
    (h : Matching key content xs ys) (h' : Matching key content ys xs) (name : String) :
    (ys.find? fun y => key y == name).map content =
      (xs.find? fun x => key x == name).map content := by
  cases hfound : xs.find? fun x => key x == name with
  | some x =>
      rcases h x (List.mem_of_find?_eq_some hfound) with ⟨y, hy, hkey, hcontent⟩
      have hname : key x = name := by simpa using List.find?_some hfound
      rw [← hname, ← hkey, find?_of_mem hys hy]
      exact congrArg some hcontent
  | none =>
      cases hother : ys.find? fun y => key y == name with
      | none => rfl
      | some y =>
          rcases h' y (List.mem_of_find?_eq_some hother) with ⟨x, hx, hkey, _⟩
          have hname : key y = name := by simpa using List.find?_some hother
          rw [← hname, ← hkey, find?_of_mem hxs hx] at hfound
          cases hfound

end Matching

section Lists

variable {α β γ : Type}

/-!
# Related lists
-/

theorem exists_mem_right {R : α -> β -> Prop} {xs : List α} {ys : List β}
    (h : List.Forall₂ R xs ys) {x : α} (hx : x ∈ xs) : exists y, y ∈ ys ∧ R x y := by
  induction h with
  | nil => cases hx
  | cons hR _ ih =>
      rcases List.mem_cons.mp hx with rfl | hrest
      · exact ⟨_, List.mem_cons_self, hR⟩
      · rcases ih hrest with ⟨y, hy, hxy⟩
        exact ⟨y, List.mem_cons_of_mem _ hy, hxy⟩

theorem exists_mem_left {R : α -> β -> Prop} {xs : List α} {ys : List β}
    (h : List.Forall₂ R xs ys) {y : β} (hy : y ∈ ys) : exists x, x ∈ xs ∧ R x y :=
  exists_mem_right h.flip hy

theorem map_eq_map_of_forall₂ {R : α -> β -> Prop} {g : α -> γ} {g' : β -> γ}
    (hR : forall x y, R x y -> g' y = g x) {xs : List α} {ys : List β}
    (h : List.Forall₂ R xs ys) : ys.map g' = xs.map g := by
  induction h with
  | nil => rfl
  | cons hx _ ih => rw [List.map_cons, List.map_cons, hR _ _ hx, ih]

theorem rel_getElem? {R : α -> β -> Prop} {xs : List α} {ys : List β}
    (h : List.Forall₂ R xs ys) (i : Nat) : Option.Rel R xs[i]? ys[i]? := by
  induction h generalizing i with
  | nil => exact .none
  | cons hab _ ih =>
      cases i with
      | zero => exact .some hab
      | succ i => exact ih i

theorem rel_map {δ : Type} {R : α -> β -> Prop} {S : γ -> δ -> Prop} {f : α -> γ} {g : β -> δ}
    {a : Option α} {b : Option β} (h : Option.Rel R a b) (hS : forall x y, R x y -> S (f x) (g y)) :
    Option.Rel S (a.map f) (b.map g) := by
  cases h with
  | none => exact .none
  | some hR => exact .some (hS _ _ hR)

theorem forall₂_zipIdx {R : α -> β -> Prop} {xs : List α} {ys : List β}
    (h : List.Forall₂ R xs ys) (k : Nat) :
    List.Forall₂ (fun e e' => e'.2 = e.2 ∧ R e.1 e'.1) (xs.zipIdx k) (ys.zipIdx k) := by
  induction h generalizing k with
  | nil => exact .nil
  | cons hab _ ih => exact .cons ⟨rfl, hab⟩ (ih (k + 1))

theorem findSome?_eq_of_forall₂ {R : α -> β -> Prop} {f : α -> Option γ} {g : β -> Option γ}
    {xs : List α} {ys : List β} (h : List.Forall₂ R xs ys)
    (hfg : forall x y, x ∈ xs -> R x y -> g y = f x) : ys.findSome? g = xs.findSome? f := by
  induction h with
  | nil => rfl
  | cons hx _ ih =>
      rw [List.findSome?_cons, List.findSome?_cons, hfg _ _ List.mem_cons_self hx,
        ih fun x y hmem => hfg x y (List.mem_cons_of_mem _ hmem)]

theorem exists_forall₂ {α' β' : Type} {R : α -> α' -> Prop} {P : α -> β -> Prop}
    {Q : α' -> β' -> Prop} {S : β -> β' -> Prop}
    (h : forall x x' y, R x x' -> P x y -> exists y', Q x' y' ∧ S y y') {xs : List α}
    {xs' : List α'} {ys : List β} (hxs : List.Forall₂ R xs xs') (hys : List.Forall₂ P xs ys) :
    exists ys', List.Forall₂ Q xs' ys' ∧ List.Forall₂ S ys ys' := by
  induction hxs generalizing ys with
  | nil =>
      cases hys
      exact ⟨[], List.Forall₂.nil, List.Forall₂.nil⟩
  | cons hx _ ih =>
      cases hys with
      | cons hy hrest =>
          rcases h _ _ _ hx hy with ⟨y', hQ, hS⟩
          rcases ih hrest with ⟨ys', hQs, hSs⟩
          exact ⟨y' :: ys', List.Forall₂.cons hQ hQs, List.Forall₂.cons hS hSs⟩

/-!
# Rearranged lists
-/

def Arranged (R : α -> β -> Prop) (xs : List α) (ys : List β) : Prop :=
  exists l, l.Perm xs ∧ List.Forall₂ R l ys

namespace Arranged

variable {R : α -> β -> Prop} {xs : List α} {ys : List β}

theorem of_forall₂ (h : List.Forall₂ R xs ys) : Arranged R xs ys :=
  ⟨xs, List.Perm.refl xs, h⟩

theorem perm_left {xs' : List α} (h : Arranged R xs ys) (hperm : xs.Perm xs') :
    Arranged R xs' ys := by
  rcases h with ⟨l, hl, hys⟩
  exact ⟨l, hl.trans hperm, hys⟩

theorem perm_right {ys' : List β} (h : Arranged R xs ys) (hperm : ys.Perm ys') :
    Arranged R xs ys' := by
  rcases h with ⟨l, hl, hys⟩
  rcases List.perm_comp_forall₂ hperm.symm hys.flip with ⟨l', hys', hl'⟩
  exact ⟨l', hl'.trans hl, hys'.flip⟩

theorem append {xs' : List α} {ys' : List β} (h : Arranged R xs ys) (h' : Arranged R xs' ys') :
    Arranged R (xs ++ xs') (ys ++ ys') := by
  rcases h with ⟨l, hl, hys⟩
  rcases h' with ⟨l', hl', hys'⟩
  exact ⟨l ++ l', hl.append hl', List.rel_append hys hys'⟩

theorem mem_right (h : Arranged R xs ys) {x : α} (hx : x ∈ xs) : exists y, y ∈ ys ∧ R x y := by
  rcases h with ⟨l, hl, hys⟩
  exact exists_mem_right hys (hl.mem_iff.mpr hx)

theorem mem_left (h : Arranged R xs ys) {y : β} (hy : y ∈ ys) : exists x, x ∈ xs ∧ R x y := by
  rcases h with ⟨l, hl, hys⟩
  rcases exists_mem_left hys hy with ⟨x, hx, hxy⟩
  exact ⟨x, hl.mem_iff.mp hx, hxy⟩

theorem flatMap {α' β' : Type} {S : α' -> β' -> Prop} {f : α -> List α'} {g : β -> List β'}
    (hfg : forall x y, R x y -> Arranged S (f x) (g y)) (h : Arranged R xs ys) :
    Arranged S (xs.flatMap f) (ys.flatMap g) := by
  rcases h with ⟨l, hl, hys⟩
  refine perm_left ?_ (hl.flatMap_right f)
  clear hl
  induction hys with
  | nil => exact of_forall₂ List.Forall₂.nil
  | cons hxy _ ih =>
      rw [List.flatMap_cons, List.flatMap_cons]
      exact (hfg _ _ hxy).append ih

theorem filterMap {α' β' : Type} {S : α' -> β' -> Prop} {f : α -> Option α'} {g : β -> Option β'}
    (hfg : forall x y, R x y -> Option.Rel S (f x) (g y)) (h : Arranged R xs ys) :
    Arranged S (xs.filterMap f) (ys.filterMap g) := by
  rcases h with ⟨l, hl, hys⟩
  exact ⟨l.filterMap f, hl.filterMap f, List.rel_filterMap (fun _ _ h => hfg _ _ h) hys⟩

theorem map_perm {g : α -> γ} {g' : β -> γ} (hg : forall x y, R x y -> g' y = g x)
    (h : Arranged R xs ys) : (xs.map g).Perm (ys.map g') := by
  rcases h with ⟨l, hl, hys⟩
  rw [map_eq_map_of_forall₂ hg hys]
  exact (hl.map g).symm

theorem perm_of_eq {xs ys : List α} (h : Arranged Eq xs ys) : xs.Perm ys := by
  rcases h with ⟨l, hl, hys⟩
  rw [List.forall₂_eq_eq_eq] at hys
  exact hys ▸ hl.symm

end Arranged

/-!
# Steps that may fail
-/

theorem mapM_eq_some_iff {f : α -> Option β} {xs : List α} {ys : List β} :
    xs.mapM f = some ys ↔ List.Forall₂ (fun x y => f x = some y) xs ys := by
  induction xs generalizing ys with
  | nil =>
      rw [List.mapM_nil, List.forall₂_nil_left_iff]
      exact ⟨fun h => (Option.some.inj h).symm, fun h => congrArg some h.symm⟩
  | cons x rest ih =>
      rw [List.mapM_cons]
      constructor
      · intro h
        rcases Option.bind_eq_some_iff.mp h with ⟨y, hy, hrest⟩
        rcases Option.bind_eq_some_iff.mp hrest with ⟨ys, hys, heq⟩
        cases heq
        exact List.Forall₂.cons hy (ih.mp hys)
      · intro h
        cases h with
        | cons hy hrest =>
            refine Option.bind_eq_some_iff.mpr ⟨_, hy, ?_⟩
            exact Option.bind_eq_some_iff.mpr ⟨_, ih.mpr hrest, rfl⟩

theorem exists_mapM {f : α -> Option β} {xs : List α}
    (h : forall x, x ∈ xs -> exists y, f x = some y) : exists ys, xs.mapM f = some ys := by
  induction xs with
  | nil => exact ⟨[], rfl⟩
  | cons x rest ih =>
      rw [List.forall_mem_cons] at h
      rcases h.1 with ⟨y, hy⟩
      rcases ih h.2 with ⟨ys, hys⟩
      exact ⟨y :: ys, mapM_eq_some_iff.mpr (List.Forall₂.cons hy (mapM_eq_some_iff.mp hys))⟩

theorem mapM_zipIdx (f : α -> Option β) (xs : List α) (k : Nat) :
    ((xs.zipIdx k).mapM fun x => f x.1) = xs.mapM f := by
  induction xs generalizing k with
  | nil => rfl
  | cons x rest ih => rw [List.zipIdx_cons, List.mapM_cons, List.mapM_cons, ih]

theorem foldlM_bind (e : α -> Option (Option γ)) (g : β -> γ -> Option β) (xs : List α) (b : β) :
    xs.foldlM (fun b x => (e x).bind fun c => c.elim (some b) (g b)) b =
      (xs.mapM e).bind fun cs => (cs.filterMap id).foldlM g b := by
  induction xs generalizing b with
  | nil => rfl
  | cons x rest ih =>
      rw [List.foldlM_cons, List.mapM_cons]
      cases e x with
      | none => rfl
      | some c =>
          have hrest : forall b', rest.foldlM (fun b x => (e x).bind fun c => c.elim (some b) (g b))
              b' = (rest.mapM e).bind fun cs => (cs.filterMap id).foldlM g b' := ih
          cases c with
          | none =>
              refine (hrest b).trans ?_
              cases rest.mapM e with
              | none => rfl
              | some cs => rfl
          | some c =>
              show (g b c >>= fun b' => rest.foldlM _ b') = _
              rw [funext hrest]
              cases rest.mapM e with
              | none =>
                  cases g b c with
                  | none => rfl
                  | some b' => rfl
              | some cs => rfl

end Lists
end GoAtlas
