import GoAtlas.Proofs.Source.ForwardFiles
import GoAtlas.Proofs.Source.Names

/-!
# Where types are declared

The declaration of a type, the keyword aside, is a run of bytes of its file, and the run begins
with the name of the type.
-/

namespace GoAtlas
namespace Source

open Text (Glyph)

/-!
# Blanks
-/

theorem triviaLength_drop (newlines : Bool) (gs : List Glyph) (inner : Nat) :
    triviaLength newlines 0 (gs.drop (triviaLength newlines inner gs)) = 0 := by
  induction gs generalizing inner with
  | nil => cases inner <;> rfl
  | cons g rest ih =>
      cases inner with
      | succ inner => exact ih inner
      | zero =>
          rw [triviaLength]
          split
          · exact ih 0
          next hspace =>
            split
            next hcomment =>
              rw [List.drop_zero, triviaLength, if_neg hspace, hcomment]
            next n _ => exact ih n

namespace Cursor

def next (c : Cursor) : Cursor :=
  c.advance (triviaLength true 0 c.rest)

theorem reaches_next (c : Cursor) : c.Reaches c.next :=
  c.reaches_advance _

theorem next_next (c : Cursor) : c.next.next = c.next := by
  have hnone : triviaLength true 0 c.next.rest = 0 := by
    rw [next, rest_advance]
    exact triviaLength_drop true c.rest 0
  rw [next, hnone]
  rfl

def pastWord (c : Cursor) : Cursor :=
  c.advance (Parse.wordLength c.rest)

end Cursor

namespace Parse

theorem wordLength_le (gs : List Glyph) : wordLength gs ≤ gs.length := by
  unfold wordLength
  split
  next g rest =>
    split
    · have hle := (List.takeWhile_prefix (l := rest)
        fun g : Glyph => g.valid && Text.isIdentifierContinue g.char).length_le
      rw [List.length_cons]
      omega
    · exact Nat.zero_le _
  · exact Nat.le_refl _

theorem eq_of_ident {c c' : Cursor} {x : Extent} (h : ident c = .ok (x, c')) :
    x = c.next.extentTo c.next.pastWord ∧ c' = c.next.pastWord := by
  let a := c.next
  change (if wordLength a.rest == 0 then (Parse.fail : Parse Extent) else do
    move (wordLength a.rest)
    since a) a = .ok (x, c') at h
  split at h
  · cases h
  · cases h
    exact ⟨rfl, rfl⟩

/-!
# What readers give, by where they start
-/

def GivesFrom {α : Type} (b : Cursor) (P : α -> Prop) (p : Parse α) : Prop :=
  forall c a c', b.Reaches c -> p c = .ok (a, c') -> P a

namespace GivesFrom

variable {α β : Type} {b : Cursor} {P : α -> Prop} {Q : β -> Prop}

theorem pure {a : α} (h : P a) : GivesFrom b P (Pure.pure a) := by
  intro c a' c' _ hrun
  cases hrun
  exact h

theorem bind {p : Parse α} {f : α -> Parse β} (hmoves : Moves p) (hp : GivesFrom b P p)
    (hf : forall a, P a -> GivesFrom b Q (f a)) : GivesFrom b Q (p >>= f) := by
  intro c r c' hc hrun
  change (p c >>= fun r => f r.1 r.2) = .ok (r, c') at hrun
  cases hfirst : p c with
  | error e =>
      rw [hfirst] at hrun
      cases hrun
  | ok found =>
      rw [hfirst] at hrun
      exact hf found.1 (hp c found.1 found.2 hc hfirst) found.2 r c'
        (hc.trans (hmoves c found.1 found.2 hfirst)) hrun

theorem after {p : Parse α} {f : α -> Parse β} (hmoves : Moves p)
    (hf : forall a, GivesFrom b Q (f a)) : GivesFrom b Q (p >>= f) :=
  bind (P := fun _ => True) hmoves (fun _ _ _ _ _ => trivial) fun a _ => hf a

theorem manyWithin {step : Parse (Option α)} (hmoves : Moves step)
    (hstep : GivesFrom b (fun r => forall a, r = some a -> P a) step) (fuel : Nat) :
    GivesFrom b (fun as => forall a, a ∈ as -> P a) (Parse.manyWithin step fuel) := by
  induction fuel with
  | zero => exact pure (List.forall_mem_nil _)
  | succ fuel ih =>
      refine bind hmoves hstep fun r hr => ?_
      cases r with
      | none => exact pure (List.forall_mem_nil _)
      | some a =>
          refine bind (hmoves.manyWithin fuel) ih fun more hmore => ?_
          exact pure (List.forall_mem_cons.mpr ⟨hr a rfl, hmore⟩)

theorem many {step : Parse (Option α)} (hmoves : Moves step)
    (hstep : GivesFrom b (fun r => forall a, r = some a -> P a) step) :
    GivesFrom b (fun as => forall a, a ∈ as -> P a) (Parse.many step) :=
  after Moves.get fun c => manyWithin hmoves hstep (c.rest.length + 1)

theorem bindMany {step : Parse (Option α)} {f : List α -> Parse β} (hmoves : Moves step)
    (hstep : GivesFrom b (fun r => forall a, r = some a -> P a) step)
    (hf : forall as, (forall a, a ∈ as -> P a) -> GivesFrom b Q (f as)) :
    GivesFrom b Q (Parse.many step >>= f) :=
  bind hmoves.many (many hmoves hstep) hf

theorem none : GivesFrom b (fun r => forall a, r = some a -> P a) (Pure.pure none) :=
  pure fun _ h => by cases h

theorem some {a : α} (h : P a) : GivesFrom b (fun r => forall a, r = some a -> P a)
    (Pure.pure (some a)) := by
  apply pure
  rintro _ ⟨⟩
  exact h

theorem terminated {item : Parse α} (hmoves : Moves item) (hitem : GivesFrom b P item)
    (close : String) :
    GivesFrom b (fun as => forall a, a ∈ as -> P a) (Parse.terminated close item) := by
  have hstep : Moves (do
      if ← Parse.follows false close then return Option.none
      else
        let a ← item
        terminator
        return Option.some a) := by
    refine (Moves.follows false close).bind fun found => ?_
    split
    · exact .pure
    · exact hmoves.bind fun _ => Moves.terminator.bind fun _ => .pure
  refine many hstep (after (Moves.follows false close) fun found => ?_)
  split
  · exact none
  · exact bind hmoves hitem fun a ha => after Moves.terminator fun _ => some ha

end GivesFrom
end Parse

/-!
# Declarations of types
-/

def Placed (b : Cursor) (spec : TypeSpec) : Prop :=
  exists a c, b.Reaches a ∧ a.pastWord.Reaches c ∧ spec.extent = a.extentTo c ∧
    spec.name = a.extentTo a.pastWord

namespace Grammar

open Parse

variable {g : Grammar}

theorem givesFrom_since (a b : Cursor) :
    GivesFrom b (fun x => exists c, b.Reaches c ∧ x = a.extentTo c) (since a) := by
  intro c x c' hc hrun
  cases hrun
  exact ⟨c, hc, rfl⟩

theorem givesFrom_noteTypeSpec {b : Cursor} {P : TypeSpec -> Prop} {spec : TypeSpec}
    (h : P spec) : GivesFrom b P (noteTypeSpec spec) := by
  intro c spec' c' _ hrun
  cases hrun
  exact h

theorem givesFrom_typeSpec (hg : g.Moving) (b : Cursor) :
    GivesFrom b (Placed b) (typeSpec g) := by
  intro c spec c' hc hrun
  let a := c.next
  -- What comes behind the name reaches the end of the declaration.
  have hrest (name : Extent) (z : Cursor) : GivesFrom z
      (fun spec : TypeSpec => spec.name = name ∧ exists y, z.Reaches y ∧ spec.extent = a.extentTo y)
      (do
        if ← follows false "=" then
          let type ← g.type true
          noteTypeSpec ⟨← since a, name, [], true, type⟩
        else
          let r ← declaredType g
          noteTypeSpec ⟨← since a, name, r.1, false, r.2⟩) := by
    refine .after (Moves.follows false "=") fun found => ?_
    split
    · exact .after (hg.type true) fun _ => .bind (Moves.since a) (givesFrom_since a z) fun x hx =>
        givesFrom_noteTypeSpec ⟨rfl, hx⟩
    · exact .after (moves_declaredType hg) fun _ =>
        .bind (Moves.since a) (givesFrom_since a z) fun x hx => givesFrom_noteTypeSpec ⟨rfl, hx⟩
  change (ident a >>= fun x => (do
    if ← follows false "=" then
      let type ← g.type true
      noteTypeSpec ⟨← since a, x.1, [], true, type⟩
    else
      let r ← declaredType g
      noteTypeSpec ⟨← since a, x.1, r.1, false, r.2⟩ : Parse TypeSpec) x.2) =
    .ok (spec, c') at hrun
  cases hident : ident a with
  | error e =>
      rw [hident] at hrun
      cases hrun
  | ok found =>
      obtain ⟨name, z⟩ := found
      rw [hident] at hrun
      obtain ⟨hname, hz⟩ := eq_of_ident hident
      rw [Cursor.next_next] at hname hz
      obtain ⟨hsame, y, hy, hextent⟩ := hrest name z z spec c' (.refl z) hrun
      refine ⟨a, y, hc.trans c.reaches_next, ?_, hextent, ?_⟩
      · rw [← hz]
        exact hy
      · rw [hsame]
        exact hname

section Files

variable {b : Cursor}

theorem givesFrom_group {α : Type} {P : α -> Prop} {item : Parse α} (hmoves : Moves item)
    (hitem : GivesFrom b P item) :
    GivesFrom b (fun as => forall a, a ∈ as -> P a) (group item) := by
  refine .after (Moves.follows false "(") fun found => ?_
  split
  · exact hitem.terminated hmoves ")"
  · exact .bind hmoves hitem fun a ha => .pure (List.forall_mem_singleton.mpr ha)

theorem givesFrom_of_gives {α : Type} {P : α -> Prop} {p : Parse α} (h : Gives P p) :
    GivesFrom b P p :=
  fun c a c' _ hrun => h c a c' hrun

theorem givesFrom_of_ungrouped {P : TypeSpec -> Prop} {p : Parse Decl} (h : Gives IsUngrouped p) :
    GivesFrom b (EachType P) p :=
  givesFrom_of_gives (h.mono fun _ hd => eachType_of_ungrouped hd)

theorem givesFrom_topLevel (hg : g.Moving) : GivesFrom b (EachType (Placed b)) (topLevel g) := by
  refine .after Moves.word fun w => ?_
  split
  · exact givesFrom_of_ungrouped (Gives.after fun _ => Gives.after fun _ => Gives.after fun _ =>
      Gives.after fun _ => Gives.pure trivial)
  · exact givesFrom_of_ungrouped (Gives.after fun _ => Gives.after fun _ => Gives.pure trivial)
  · have hmethod := (gives_methodDecl g).either (gives_otherStatement g)
    exact givesFrom_of_ungrouped ((gives_funcDecl g).either hmethod)
  · refine givesFrom_of_gives (Gives.after fun _ => Gives.after fun _ => Gives.pure ?_)
    intro _ heq
    cases heq
  · refine .after (Moves.move 4) fun _ => ?_
    refine .bind (moves_group (moves_typeSpec hg))
      (givesFrom_group (moves_typeSpec hg) (givesFrom_typeSpec hg b)) fun specs hspecs => .pure ?_
    rintro _ ⟨⟩
    exact hspecs
  · exact givesFrom_of_ungrouped (Gives.after fun _ => Gives.after fun _ => Gives.pure trivial)
  · exact givesFrom_of_ungrouped (gives_otherStatement g)

theorem givesFrom_file (hg : g.Moving) :
    GivesFrom b (fun f => forall d, d ∈ f.decls -> EachType (Placed b) d) (file g) := by
  refine GivesFrom.bindMany (P := EachType (Placed b)) ?_ ?_ fun decls hdecls =>
    .after Moves.get fun _ => .pure hdecls
  · refine (Moves.skip false).bind fun _ => Moves.char?.bind fun c => ?_
    split
    · exact .pure
    · exact (moves_topLevel hg).bind fun _ => Moves.terminator.bind fun _ => .pure
  · refine .after (Moves.skip false) fun _ => .after Moves.char? fun c => ?_
    split
    · exact .none
    · exact .bind (moves_topLevel hg) (givesFrom_topLevel hg) fun d hd =>
        .after Moves.terminator fun _ => .some hd

end Files

end Grammar

theorem File.placed_of_read {bytes : Text.Bytes} {f : File} (h : File.read bytes = .ok f)
    {d : Decl} (hd : d ∈ f.decls) :
    Grammar.EachType (Placed (Cursor.origin (Text.glyphs bytes))) d := by
  unfold File.read at h
  dsimp only at h
  split at h
  next hfile =>
    cases h
    exact Grammar.givesFrom_file (Grammar.moving_ofDepth _) _ _ _
      (Cursor.reaches_start (Text.glyphs bytes)) hfile d hd
  · cases h

/-!
# Bytes of declarations
-/

/-- The declaration is a run of bytes that begins with the name of the type. -/
structure Spans (bytes : Text.Bytes) (spec : TypeSpec) : Prop where
  ordered : spec.extent.start ≤ spec.extent.stop
  inside : spec.extent.stop ≤ bytes.length
  named : Text.encode spec.name.text <+: (bytes.take spec.extent.stop).drop spec.extent.start

namespace Cursor

theorem bytes_of_reaches {bytes : Text.Bytes} {c : Cursor}
    (h : (origin (Text.glyphs bytes)).Reaches c) :
    c.offset ≤ bytes.length ∧ Text.glyphs (bytes.drop c.offset) = c.rest := by
  obtain ⟨gs, hrest, hoffset, _⟩ := h
  have hwidth : c.offset = Text.width gs := by
    rw [hoffset]
    simp [origin]
  rw [hwidth]
  exact Text.glyphs_drop hrest

theorem bytes_of_word {bytes : Text.Bytes} {a : Cursor}
    (h : (origin (Text.glyphs bytes)).Reaches a) :
    (bytes.drop a.offset).take (a.pastWord.offset - a.offset) =
      Text.encode (a.extentTo a.pastWord).text := by
  have hlength := Parse.wordLength_le a.rest
  have hindex : a.pastWord.index = a.index + Parse.wordLength a.rest := index_advance hlength
  obtain ⟨hrest, hoffset⟩ := (a.reaches_advance (Parse.wordLength a.rest)).between
  change a.rest = a.rest.take (a.pastWord.index - a.index) ++ a.pastWord.rest at hrest
  change a.pastWord.offset = _ + Text.width (a.rest.take (a.pastWord.index - a.index)) at hoffset
  rw [hindex, Nat.add_sub_cancel_left] at hrest hoffset
  have hvalid : forall g, g ∈ a.rest.take (Parse.wordLength a.rest) -> g.valid = true :=
    fun _ hg => (Parse.char_of_mem_word a.rest hg).1
  have hglyphs := (bytes_of_reaches h).2.trans hrest
  have htext : (a.extentTo a.pastWord).text =
      String.ofList ((a.rest.take (Parse.wordLength a.rest)).map (·.char)) := by
    unfold extentTo Text.textOf?
    rw [hindex, Nat.add_sub_cancel_left, if_pos (List.all_eq_true.mpr hvalid)]
    rfl
  rw [htext, hoffset, Nat.add_sub_cancel_left]
  exact Text.take_of_valid hglyphs hvalid

end Cursor

theorem Placed.spans {bytes : Text.Bytes} {spec : TypeSpec}
    (h : Placed (Cursor.origin (Text.glyphs bytes)) spec) : Spans bytes spec := by
  obtain ⟨a, c, ha, hc, hextent, hname⟩ := h
  have hpast : a.Reaches a.pastWord := a.reaches_advance _
  have hstart : spec.extent.start = a.offset := by rw [hextent]; rfl
  have hstop : spec.extent.stop = c.offset := by rw [hextent]; rfl
  constructor
  · rw [hstart, hstop]
    exact (hpast.trans hc).offset_le
  · rw [hstop]
    exact (Cursor.bytes_of_reaches (ha.trans (hpast.trans hc))).1
  · rw [hname, ← Cursor.bytes_of_word ha, hstart, hstop, List.drop_take]
    exact List.take_prefix_take_left (Nat.sub_le_sub_right hc.offset_le a.offset)

theorem File.spans_of_read {bytes : Text.Bytes} {f : File} (h : File.read bytes = .ok f)
    {d : Decl} (hd : d ∈ f.decls) : Grammar.EachType (Spans bytes) d := by
  intro specs hspecs spec hspec
  exact (placed_of_read h hd specs hspecs spec hspec).spans

end Source
end GoAtlas
