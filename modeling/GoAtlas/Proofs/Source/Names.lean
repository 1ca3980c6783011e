import GoAtlas.Package.Loaded

/-!
# Names of declared types

An identifier has no dot in it, so neither has the name of any type that a file declares.  The
readers of the grammar are followed only as far as they make such names.
-/

namespace GoAtlas

namespace Text

theorem ne_dot_of_isIdentifierContinue {c : Char} (h : isIdentifierContinue c = true) :
    c ≠ '.' := by
  intro heq
  subst heq
  revert h
  decide

theorem ne_dot_of_isIdentifierStart {c : Char} (h : isIdentifierStart c = true) : c ≠ '.' := by
  intro heq
  subst heq
  revert h
  decide

end Text

namespace Source

def Plain (name : String) : Prop := '.' ∉ name.toList

/-!
# Cursors
-/

namespace Cursor

theorem index_advance_le (c : Cursor) (n : Nat) : (c.advance n).index ≤ c.index + n := by
  induction n generalizing c with
  | zero => exact Nat.le_refl _
  | succ n ih =>
      rw [advance]
      split
      · exact Nat.le_add_right _ _
      · refine Nat.le_trans (ih _) ?_
        dsimp only
        omega

end Cursor

namespace Parse

theorem char_of_mem_word (gs : List Text.Glyph) {g : Text.Glyph}
    (h : g ∈ gs.take (wordLength gs)) : g.valid = true ∧
      (Text.isIdentifierStart g.char = true ∨ Text.isIdentifierContinue g.char = true) := by
  unfold wordLength at h
  split at h
  · next first rest =>
      split at h
      · next hstart =>
          rw [Bool.and_eq_true] at hstart
          rw [Nat.add_comm, List.take_succ_cons] at h
          rcases List.mem_cons.mp h with rfl | hrest
          · exact ⟨hstart.1, Or.inl hstart.2⟩
          · have htake : rest.take (rest.takeWhile fun g =>
                g.valid && Text.isIdentifierContinue g.char).length =
                  rest.takeWhile fun g => g.valid && Text.isIdentifierContinue g.char :=
              List.prefix_iff_eq_take.mp (List.takeWhile_prefix _) |>.symm
            rw [htake] at hrest
            have hcontinue := List.all_eq_true.mp List.all_takeWhile g hrest
            rw [Bool.and_eq_true] at hcontinue
            exact ⟨hcontinue.1, Or.inr hcontinue.2⟩
      · cases h
  · cases h

theorem ne_dot_of_mem_word (gs : List Text.Glyph) {g : Text.Glyph}
    (h : g ∈ gs.take (wordLength gs)) : g.char ≠ '.' := by
  rcases (char_of_mem_word gs h).2 with hstart | hcontinue
  · exact Text.ne_dot_of_isIdentifierStart hstart
  · exact Text.ne_dot_of_isIdentifierContinue hcontinue

theorem plain_textOf {gs : List Text.Glyph} (h : forall g, g ∈ gs -> g.char ≠ '.') :
    Plain ((Text.textOf? gs).getD "") := by
  unfold Plain Text.textOf?
  split
  · rw [Option.getD_some, String.toList_ofList, List.mem_map]
    rintro ⟨g, hg, hdot⟩
    exact h g hg hdot
  · exact List.not_mem_nil

/-!
# What readers give
-/

def Gives {α : Type} (P : α -> Prop) (p : Parse α) : Prop :=
  forall c a c', p c = .ok (a, c') -> P a

namespace Gives

variable {α β : Type} {P : α -> Prop} {Q : β -> Prop}

theorem pure {a : α} (h : P a) : Gives P (Pure.pure a) := by
  intro c b c' hrun
  cases hrun
  exact h

theorem bind {p : Parse α} {f : α -> Parse β} (hp : Gives P p)
    (hf : forall a, P a -> Gives Q (f a)) : Gives Q (p >>= f) := by
  intro c b c' hrun
  change (p c >>= fun r => f r.1 r.2) = .ok (b, c') at hrun
  cases hfirst : p c with
  | error e =>
      rw [hfirst] at hrun
      cases hrun
  | ok r =>
      rw [hfirst] at hrun
      exact hf r.1 (hp c r.1 r.2 hfirst) r.2 b c' hrun

theorem mono {p : Parse α} {Q : α -> Prop} (hp : Gives P p) (h : forall a, P a -> Q a) :
    Gives Q p :=
  fun c a c' hrun => h a (hp c a c' hrun)

theorem after {p : Parse α} {f : α -> Parse β} (hf : forall a, Gives Q (f a)) :
    Gives Q (p >>= f) :=
  bind (P := fun _ => True) (fun _ _ _ _ => trivial) fun a _ => hf a

theorem either {p q : Parse α} (hp : Gives P p) (hq : Gives P q) :
    Gives P (Parse.either p q) := by
  intro c a c' hrun
  unfold Parse.either at hrun
  split at hrun
  · next r hr =>
      cases hrun
      exact hp c a c' hr
  · split at hrun
    · next r hr =>
        cases hrun
        exact hq c a c' hr
    · cases hrun

theorem manyWithin {step : Parse (Option α)}
    (hstep : Gives (fun r => forall a, r = some a -> P a) step) (fuel : Nat) :
    Gives (fun as => forall a, a ∈ as -> P a) (Parse.manyWithin step fuel) := by
  induction fuel with
  | zero => exact pure fun _ ha => absurd ha List.not_mem_nil
  | succ fuel ih =>
      refine hstep.bind ?_
      intro r hr
      cases r with
      | none => exact pure fun _ ha => absurd ha List.not_mem_nil
      | some a =>
          refine ih.bind ?_
          intro more hmore
          exact pure (List.forall_mem_cons.mpr ⟨hr a rfl, hmore⟩)

theorem many {step : Parse (Option α)} (hstep : Gives (fun r => forall a, r = some a -> P a) step) :
    Gives (fun as => forall a, a ∈ as -> P a) (Parse.many step) :=
  after fun c => manyWithin hstep (c.rest.length + 1)

theorem terminated {item : Parse α} (hitem : Gives P item) (close : String) :
    Gives (fun as => forall a, a ∈ as -> P a) (Parse.terminated close item) := by
  refine many (after fun found => ?_)
  split
  · exact pure fun _ h => by cases h
  · refine hitem.bind ?_
    intro a ha
    refine after fun _ => pure ?_
    rintro b ⟨⟩
    exact ha

end Gives

theorem plain_extentTo {a b : Cursor} (h : b.index ≤ a.index + wordLength a.rest) :
    Plain (a.extentTo b).text := by
  refine plain_textOf ?_
  intro g hg
  refine ne_dot_of_mem_word a.rest ?_
  exact (List.take_subset_take_left a.rest (by omega)) hg

theorem gives_ident : Gives (fun x => Plain x.text) ident := by
  intro c x c' hrun
  let a := c.advance (triviaLength true 0 c.rest)
  change (if wordLength a.rest == 0 then (Parse.fail : Parse Extent) else do
    move (wordLength a.rest)
    since a) a = .ok (x, c') at hrun
  split at hrun
  · cases hrun
  · cases hrun
    exact plain_extentTo (a.index_advance_le _)

end Parse

namespace Grammar

open Parse

def EachType (P : TypeSpec -> Prop) (d : Decl) : Prop :=
  forall specs, d = .types specs -> forall spec, spec ∈ specs -> P spec

theorem gives_typeSpec (g : Grammar) : Gives (fun spec => Plain spec.name.text) (typeSpec g) := by
  refine Gives.after fun a => gives_ident.bind ?_
  intro name hname
  refine Gives.after fun found => ?_
  split
  · exact Gives.after fun _ => Gives.after fun _ => Gives.after fun _ => Gives.pure hname
  · exact Gives.after fun _ => Gives.after fun _ => Gives.after fun _ => Gives.pure hname

theorem gives_group {α : Type} {P : α -> Prop} {item : Parse α} (hitem : Gives P item) :
    Gives (fun as => forall a, a ∈ as -> P a) (group item) := by
  refine Gives.after fun found => ?_
  split
  · exact hitem.terminated ")"
  · refine hitem.bind ?_
    intro a ha
    exact Gives.pure (List.forall_mem_singleton.mpr ha)

section Files

variable {P : TypeSpec -> Prop} {D : Decl -> Prop} {g : Grammar}

def IsUngrouped : Decl -> Prop
  | .types _ => False
  | .consts _ => False
  | _ => True

theorem gives_otherStatement (g : Grammar) : Gives IsUngrouped (otherStatement g) :=
  Gives.after fun _ => Gives.after fun _ => Gives.pure trivial

theorem gives_funcDecl (g : Grammar) : Gives IsUngrouped (funcDecl g) :=
  Gives.after fun _ => Gives.after fun _ => Gives.after fun _ => Gives.after fun _ =>
    Gives.after fun _ => Gives.after fun _ => Gives.pure trivial

theorem gives_methodDecl (g : Grammar) : Gives IsUngrouped (methodDecl g) :=
  Gives.after fun _ => Gives.after fun _ => Gives.after fun _ => Gives.after fun _ =>
    Gives.after fun _ => Gives.after fun _ => Gives.after fun _ => Gives.after fun _ =>
      Gives.pure trivial

/-- What holds of groups of types and constants, and of all that is ungrouped, holds of every
declaration. -/
theorem gives_topLevel_of (htypes : Gives (fun specs => D (.types specs)) (group (typeSpec g)))
    (hconsts : Gives (fun specs => D (.consts specs)) (group (constSpec g)))
    (hother : forall d, IsUngrouped d -> D d) : Gives D (topLevel g) := by
  refine Gives.after fun word => ?_
  split
  · exact Gives.after fun _ => Gives.after fun _ => Gives.after fun _ => Gives.after fun _ =>
      Gives.pure (hother _ trivial)
  · exact Gives.after fun _ => Gives.after fun _ => Gives.pure (hother _ trivial)
  · have hmethod := (gives_methodDecl g).either (gives_otherStatement g)
    exact ((gives_funcDecl g).either hmethod).mono hother
  · exact Gives.after fun _ => hconsts.bind fun _ h => Gives.pure h
  · exact Gives.after fun _ => htypes.bind fun _ h => Gives.pure h
  · exact Gives.after fun _ => Gives.after fun _ => Gives.pure (hother _ trivial)
  · exact (gives_otherStatement g).mono hother

theorem gives_file (hdecl : Gives D (topLevel g)) :
    Gives (fun f => forall d, d ∈ f.decls -> D d) (file g) := by
  refine Gives.bind (Gives.many (P := D) ?_) ?_
  · refine Gives.after fun _ => Gives.after fun char => ?_
    split
    · exact Gives.pure fun _ h => by cases h
    · refine hdecl.bind ?_
      intro d hd
      refine Gives.after fun _ => Gives.pure ?_
      rintro _ ⟨⟩
      exact hd
  · intro decls hdecls
    exact Gives.after fun _ => Gives.pure hdecls

theorem eachType_of_ungrouped {d : Decl} (h : IsUngrouped d) : EachType P d := by
  rintro specs rfl
  exact h.elim

theorem gives_topLevel (hspec : Gives P (typeSpec g)) : Gives (EachType P) (topLevel g) := by
  apply gives_topLevel_of
  · refine (gives_group hspec).mono ?_
    rintro specs h _ ⟨⟩
    exact h
  · intro c specs c' _ _ heq
    cases heq
  · exact fun d h => eachType_of_ungrouped h

end Files

end Grammar

/-- What every declaration has, whatever the depth of the grammar that reads it. -/
theorem File.decls_of_read {D : Decl -> Prop}
    (hdecl : forall depth, Parse.Gives D (Grammar.topLevel (Grammar.ofDepth depth)))
    {bytes : Text.Bytes} {f : File} (h : File.read bytes = .ok f) {d : Decl} (hd : d ∈ f.decls) :
    D d := by
  unfold File.read at h
  dsimp only at h
  split at h
  · next hfile =>
      cases h
      exact Grammar.gives_file (hdecl _) _ _ _ hfile d hd
  · cases h

theorem File.eachType_of_read {P : TypeSpec -> Prop}
    (hspec : forall depth, Parse.Gives P (Grammar.typeSpec (Grammar.ofDepth depth)))
    {bytes : Text.Bytes} {f : File} (h : File.read bytes = .ok f) {d : Decl} (hd : d ∈ f.decls) :
    Grammar.EachType P d :=
  decls_of_read (fun depth => Grammar.gives_topLevel (hspec depth)) h hd

theorem File.plainTypes_of_read {bytes : Text.Bytes} {f : File} (h : File.read bytes = .ok f)
    {d : Decl} (hd : d ∈ f.decls) : Grammar.EachType (fun spec => Plain spec.name.text) d :=
  eachType_of_read (fun _ => Grammar.gives_typeSpec _) h hd

end Source

namespace Loading

theorem read_of_parseFiles {files : List (String × Text.Bytes)} {name : String}
    {source : SourceFile} (h : (name, source) ∈ (parseFiles files).2) :
    Source.File.read source.bytes = .ok source.file := by
  induction files with
  | nil => cases h
  | cons f rest ih =>
      unfold parseFiles at h
      dsimp only at h
      split at h
      · next file hread =>
          rcases List.mem_cons.mp h with heq | hrest
          · cases heq
            exact hread
          · exact ih hrest
      · exact ih h

theorem read_of_load {t : FileTree} {tests : Bool} {dir : Path} {path : String}
    {p : LoadedPackage} (h : load t tests dir path = .ok p) {name : String} {source : SourceFile}
    (hsource : (name, source) ∈ p.sources) :
    Source.File.read source.bytes = .ok source.file := by
  unfold load at h
  split at h
  · cases h
  · dsimp only at h
    split at h
    · cases h
    · cases hname : choose dir
          ((parseFiles (wantedFiles t tests dir)).2.map fun s => s.2.file.packageName) with
      | error e =>
          rw [hname] at h
          cases h
      | ok name =>
          rw [hname] at h
          cases h
          exact read_of_parseFiles hsource

end Loading
end GoAtlas
