import GoAtlas.Proofs.Walk.Traversal

/-!
# Walks on a shared stack

All hooks of a walk can look at one stack that the walk keeps beside the state of its visitor.
Every composite type is pushed before its hooks are called and popped behind them, whether the
branch was walked, skipped or given up.  Such a walk is the walk that hands its stack down.
-/

namespace GoAtlas
namespace Visitor

variable {σ α β : Type}

/-! # Steps beside a stack -/

def hook (root : TypeName) (step : Context -> Visit σ α) : Visit (σ × List GoType) α :=
  fun (s, stack) =>
    match (step ⟨stack, root⟩).run s with
    | (result, u) => (result, u, stack)

def pushed (t : GoType) (body : Visit (σ × List GoType) Unit) : Visit (σ × List GoType) Unit :=
  fun (s, stack) =>
    match body.run (s, stack ++ [t]) with
    | (result, u, stack') => (result, u, stack'.dropLast)

def around (v : Visitor σ) (root : TypeName) (b : Branch) (body : Visit (σ × List GoType) Unit) :
    Visit (σ × List GoType) Unit := do
  match ← hook root (v.enter · b) with
  | .skip => return ()
  | .descend =>
      body
      hook root (v.leave · b)

mutual

def sharedFrom (v : Visitor σ) (root : TypeName) (package name : String) :
    GoType -> Visit (σ × List GoType) Unit
  | .basic kind => hook root (v.visit · (.basic kind))
  | .named n => hook root (v.visit · (.named n))
  | .struct fields =>
      let info : StructInfo := ⟨package, name, root, fields⟩
      pushed (.struct fields) (v.around root (.struct info) (sharedFields v root info fields))
  | .slice elem =>
      pushed (.slice elem) (v.around root (.slice elem) (sharedFrom v root package elem.text elem))
  | .array len elem =>
      pushed (.array len elem)
        (v.around root (.array len elem) (sharedFrom v root package elem.text elem))
  | .pointer elem =>
      pushed (.pointer elem)
        (v.around root (.pointer elem) (sharedFrom v root package elem.text elem))
  | .map key value =>
      pushed (.map key value) do
        v.around root (.mapKey key) (sharedFrom v root package key.text key)
        v.around root (.mapElem value) (sharedFrom v root package value.text value)
  | .interface methods embedded => unhandled (.interface methods embedded)
  | .func signature => unhandled (.func signature)
  | .chan dir elem => unhandled (.chan dir elem)

def sharedFields (v : Visitor σ) (root : TypeName) (info : StructInfo) :
    List (Field GoType) -> Visit (σ × List GoType) Unit
  | [] => return ()
  | ⟨name, type, tag, embedded, package⟩ :: rest => do
      v.around root (.field info ⟨name, type, tag, embedded, package⟩)
        (sharedFrom v root package name type)
      sharedFields v root info rest

end

def walkShared (v : Visitor σ) (root : TypeName) (t : GoType) : Visit (σ × List GoType) Unit :=
  v.sharedFrom root root.packagePath root.name t

end Visitor

/-! # The stack is as it was -/

namespace Visit

variable {σ α β : Type} {stack : List GoType}

def Beside (stack : List GoType) (x : Visit σ α) (y : Visit (σ × List GoType) α) : Prop :=
  forall s, y.run (s, stack) = ((x.run s).1, (x.run s).2, stack)

namespace Beside

theorem pure (a : α) : Beside stack (Pure.pure a : Visit σ α) (Pure.pure a) :=
  fun _ => rfl

theorem unhandled (t : GoType) :
    Beside stack (Visitor.unhandled t : Visit σ Unit) (Visitor.unhandled t) :=
  fun _ => rfl

theorem bind {x : Visit σ α} {y : Visit (σ × List GoType) α} {f : α -> Visit σ β}
    {g : α -> Visit (σ × List GoType) β} (hx : Beside stack x y)
    (hf : forall a, Beside stack (f a) (g a)) : Beside stack (x >>= f) (y >>= g) := by
  intro s
  have hy := hx s
  rcases hrun : x.run s with ⟨e | a, m⟩
  · rw [hrun] at hy
    rw [run_bind_of_error hrun, run_bind_of_error hy]
  · rw [hrun] at hy
    rw [run_bind_of_ok hrun, run_bind_of_ok hy]
    exact hf a m

theorem hook {root : TypeName} (step : Context -> Visit σ α) :
    Beside stack (step ⟨stack, root⟩) (Visitor.hook root step) :=
  fun _ => rfl

theorem pushed {t : GoType} {x : Visit σ Unit} {y : Visit (σ × List GoType) Unit}
    (h : Beside (stack ++ [t]) x y) : Beside stack x (Visitor.pushed t y) := by
  intro s
  have hrun : (Visitor.pushed t y).run (s, stack) =
      ((y.run (s, stack ++ [t])).1, (y.run (s, stack ++ [t])).2.1,
        (y.run (s, stack ++ [t])).2.2.dropLast) := rfl
  rw [hrun, h s, List.dropLast_concat]

theorem around {v : Visitor σ} {root : TypeName} {b : Branch} {x : Visit σ Unit}
    {y : Visit (σ × List GoType) Unit} (h : Beside stack x y) :
    Beside stack (v.within ⟨stack, root⟩ b x) (v.around root b y) := by
  refine (hook (v.enter · b)).bind fun flow => ?_
  cases flow with
  | skip => exact pure ()
  | descend => exact h.bind fun _ => hook (v.leave · b)

end Beside
end Visit

namespace Visitor

variable {σ : Type} {v : Visitor σ} {root : TypeName}

mutual

theorem beside_walkFrom {stack : List GoType} {package name : String} (t : GoType) :
    Visit.Beside stack (v.walkFrom root stack package name t)
      (v.sharedFrom root package name t) := by
  cases t with
  | basic kind => exact .hook (v.visit · (.basic kind))
  | named n => exact .hook (v.visit · (.named n))
  | struct fields => exact .pushed (.around (beside_walkFields fields))
  | slice elem => exact .pushed (.around (beside_walkFrom elem))
  | array len elem => exact .pushed (.around (beside_walkFrom elem))
  | pointer elem => exact .pushed (.around (beside_walkFrom elem))
  | map key value =>
      exact .pushed (.bind (.around (beside_walkFrom key)) fun _ => .around (beside_walkFrom value))
  | interface methods embedded => exact .unhandled _
  | func signature => exact .unhandled _
  | chan dir elem => exact .unhandled _
termination_by structural t

theorem beside_walkFields {stack : List GoType} {info : StructInfo}
    (fields : List (Field GoType)) :
    Visit.Beside stack (v.walkFields root stack info fields)
      (v.sharedFields root info fields) := by
  match fields with
  | [] => exact .pure ()
  | ⟨name, type, tag, embedded, package⟩ :: rest =>
      exact .bind (.around (beside_walkFrom type)) fun _ => beside_walkFields rest
termination_by structural fields

end

/-- A walk on a shared stack comes out as the walk that hands its stack down, for every visitor
and also where it is given up, and its stack is empty again. -/
theorem run_walkShared (v : Visitor σ) (root : TypeName) (t : GoType) (s : σ) :
    (v.walkShared root t).run (s, []) =
      (((v.walk root t).run s).1, ((v.walk root t).run s).2, []) :=
  beside_walkFrom t s

end Visitor
end GoAtlas
