import GoAtlas.Proofs.Session.Growth
import GoAtlas.Session.MethodSet

/-!
# Operations of a session

A session is used through a sequence of operations, each of which may end in a failure.  Every
operation makes at most one request, so what all requests preserve holds after any sequence of
operations.
-/

namespace GoAtlas

/-- The operations that can change a session.  All other questions only look at it. -/
inductive Operation where
  | resolve (path : String)
  | importFrom (path : String) (dir : Path)
  | importObject (name : TypeName)
  | importObjectNamed (text : String)
  | findImplementers (iface : TypeName)
  | findImportPath (path type : String)

namespace Operation

def perform : Operation -> Session -> Session
  | resolve path, s => ((Session.resolve path).run s).2
  | importFrom path dir, s => ((Session.importFrom path dir).run s).2
  | importObject name, s => ((Session.importObject name).run s).2
  | importObjectNamed text, s =>
      match TypeName.parse text with
      | .ok name => ((Session.importObject name).run s).2
      | .error _ => s
  | findImplementers iface, s => ((Session.findImplementers iface).run s).2
  | findImportPath path type, s => ((Session.findImportPath path type).run s).2

def home (s : Session) (path : String) : Option Path :=
  s.setup.roots.workspace.map fun root => root.join path

def request? : Operation -> Session -> Option (String × Option Path)
  | resolve path, s => some (path, home s path)
  | importFrom path dir, _ => some (path, some dir)
  | importObject name, s => some (name.packagePath, home s name.packagePath)
  | importObjectNamed text, s =>
      match TypeName.parse text with
      | .ok name => some (name.packagePath, home s name.packagePath)
      | .error _ => none
  | findImplementers iface, s =>
      if (s.package? iface.packagePath).isNone then
        some (iface.packagePath, home s iface.packagePath)
      else none
  | findImportPath path _, s => some (path, home s path)

end Operation

namespace Session

theorem run_resolveFrom (path : String) (origin : Option Path) (s : Session) :
    (resolveFrom path origin).run s =
      (resolveWithin (s.setup.tree.importBound + 1) path origin).run s := by
  unfold resolveFrom
  rw [run_get_bind]

theorem run_resolve (path : String) (s : Session) :
    (resolve path).run s = (resolveFrom path (Operation.home s path)).run s := by
  unfold resolve
  rw [run_get_bind]
  rfl

def afterRequest (s : Session) (path : String) (origin : Option Path) : Session :=
  ((resolveFrom path origin).run s).2

theorem run_resolve_bind {α : Type} (path : String) (f : Option Package -> Action α)
    (hf : forall package s, ((f package).run s).2 = s) (s : Session) :
    ((resolve path >>= f).run s).2 = s.afterRequest path (Operation.home s path) := by
  unfold afterRequest
  rw [← run_resolve]
  rcases h : (resolve path).run s with ⟨r, t⟩
  cases r with
  | ok package =>
      rw [run_bind_ok h]
      exact hf package t
  | error e => rw [run_bind_error h]

theorem run_importObject (name : TypeName) (s : Session) :
    ((importObject name).run s).2 =
      s.afterRequest name.packagePath (Operation.home s name.packagePath) :=
  run_resolve_bind _ _ (fun _ _ => rfl) s

theorem run_findImportPath (path type : String) (s : Session) :
    ((findImportPath path type).run s).2 = s.afterRequest path (Operation.home s path) := by
  apply run_resolve_bind
  intro package? t
  cases package? with
  | none => rfl
  | some package =>
      dsimp only
      cases Text.cutFirst? '.' type.toList with
      | none => rfl
      | some cut =>
          dsimp only
          rw [run_get_bind]
          split
          · rfl
          · rfl

def searched (s : Session) (iface : TypeName) : Except Error (List (TypeName × Implementation)) :=
  match s.definition? iface with
  | none => .error (.objectNotFound iface.full)
  | some d =>
      match s.interfaceMethods? d.asType with
      | none => .error (.notInterface iface.full)
      | some required => .ok (s.implementersOf iface required)

theorem run_searched (s : Session) (iface : TypeName) :
    (do
      let s ← get
      match s.definition? iface with
      | none => throw (.objectNotFound iface.full)
      | some d =>
          match s.interfaceMethods? d.asType with
          | none => throw (.notInterface iface.full)
          | some required => return s.implementersOf iface required :
        Action (List (TypeName × Implementation))).run s = (s.searched iface, s) := by
  rw [run_get_bind]
  unfold searched
  cases s.definition? iface with
  | none => rfl
  | some d =>
      dsimp only
      cases s.interfaceMethods? d.asType with
      | none => rfl
      | some required => rfl

theorem run_findImplementers_eq (iface : TypeName) (s : Session) :
    (findImplementers iface).run s =
      if (s.package? iface.packagePath).isNone then
        match (resolve iface.packagePath).run s with
        | (.ok _, t) => (t.searched iface, t)
        | (.error e, t) => (.error e, t)
      else (s.searched iface, s) := by
  unfold findImplementers
  rw [run_get_bind]
  split
  · rcases hrun : (resolve iface.packagePath).run s with ⟨r, t⟩
    cases r with
    | ok package =>
        rw [run_bind_ok hrun]
        exact t.run_searched iface
    | error e => exact run_bind_error hrun
  · exact s.run_searched iface

theorem run_findImplementers (iface : TypeName) (s : Session) :
    ((findImplementers iface).run s).2 =
      if (s.package? iface.packagePath).isNone then
        s.afterRequest iface.packagePath (Operation.home s iface.packagePath)
      else s := by
  rw [run_findImplementers_eq]
  split
  · unfold afterRequest
    rw [← run_resolve]
    rcases (resolve iface.packagePath).run s with ⟨r, t⟩
    cases r with
    | ok package => rfl
    | error e => rfl
  · rfl

end Session

namespace Operation

theorem perform_eq (op : Operation) (s : Session) :
    op.perform s =
      match op.request? s with
      | some (path, origin) => s.afterRequest path origin
      | none => s := by
  cases op with
  | resolve path =>
      show ((Session.resolve path).run s).2 = _
      rw [Session.run_resolve]
      rfl
  | importFrom path dir => rfl
  | importObject name => exact Session.run_importObject name s
  | importObjectNamed text =>
      simp only [perform, request?]
      cases TypeName.parse text with
      | ok name => exact Session.run_importObject name s
      | error e => rfl
  | findImplementers iface =>
      show ((Session.findImplementers iface).run s).2 = _
      rw [Session.run_findImplementers]
      simp only [request?]
      by_cases hnone : (s.package? iface.packagePath).isNone = true
      · rw [if_pos hnone, if_pos hnone]
      · rw [if_neg hnone, if_neg hnone]
  | findImportPath path type => exact Session.run_findImportPath path type s

end Operation

namespace Session

def after (setup : Setup) (ops : List Operation) : Session :=
  ops.foldl (fun s op => op.perform s) (start setup)

theorem after_append (setup : Setup) (ops more : List Operation) :
    after setup (ops ++ more) = more.foldl (fun s op => op.perform s) (after setup ops) := by
  unfold after
  rw [List.foldl_append]

theorem after_findImplementers (setup : Setup) (ops : List Operation) (iface : TypeName) :
    after setup (ops ++ [.findImplementers iface]) =
      ((findImplementers iface).run (after setup ops)).2 :=
  after_append setup ops [.findImplementers iface]

theorem perform_induction {P : Session -> Prop}
    (hrequest : forall s path origin, P s -> P (s.afterRequest path origin))
    (op : Operation) {s : Session} (h : P s) : P (op.perform s) := by
  rw [Operation.perform_eq]
  split
  · exact hrequest s _ _ h
  · exact h

theorem foldl_induction {P : Session -> Prop}
    (hrequest : forall s path origin, P s -> P (s.afterRequest path origin))
    (ops : List Operation) {s : Session} (h : P s) :
    P (ops.foldl (fun s op => op.perform s) s) := by
  induction ops generalizing s with
  | nil => exact h
  | cons op rest ih => exact ih (perform_induction hrequest op h)

/-- What holds at the start and after every request holds after every sequence of operations. -/
theorem after_induction {P : Session -> Prop} {setup : Setup} (hstart : P (start setup))
    (hrequest : forall s path origin, P s -> P (s.afterRequest path origin))
    (ops : List Operation) : P (after setup ops) :=
  foldl_induction hrequest ops hstart

theorem grows_afterRequest (s : Session) (path : String) (origin : Option Path) :
    Grows s (s.afterRequest path origin) := by
  unfold afterRequest
  rw [run_resolveFrom]
  exact grows_resolveWithin _ path origin s

theorem grows_after (setup : Setup) (ops more : List Operation) :
    Grows (after setup ops) (after setup (ops ++ more)) := by
  rw [after_append]
  exact foldl_induction (P := Grows (after setup ops))
    (fun t path origin h => h.trans (grows_afterRequest t path origin)) more (Grows.refl _)

theorem setup_after (setup : Setup) (ops : List Operation) : (after setup ops).setup = setup :=
  (grows_after setup [] ops).setup

theorem pending_after (setup : Setup) (ops : List Operation) : (after setup ops).pending = [] :=
  (grows_after setup [] ops).pending

end Session
end GoAtlas
