import GoAtlas.Proofs.Text.Utf8
import GoAtlas.Source.Lexeme

/-!
# Places in a file

Readers move the cursor forward over glyphs of the file, or they set it back to where they
found it.  So every place that is noted on the way lies in the file, and a later one lies
behind an earlier one.
-/

namespace GoAtlas
namespace Source

open Text (Glyph)

namespace Cursor

/-- The second place lies behind the first, with some glyphs between them. -/
def Reaches (a c : Cursor) : Prop :=
  exists gs, a.rest = gs ++ c.rest ∧ c.offset = a.offset + Text.width gs ∧
    c.index = a.index + gs.length

theorem Reaches.refl (c : Cursor) : c.Reaches c :=
  ⟨[], rfl, rfl, rfl⟩

theorem Reaches.trans {a b c : Cursor} (hab : a.Reaches b) (hbc : b.Reaches c) : a.Reaches c := by
  obtain ⟨front, hrest, hoffset, hindex⟩ := hab
  obtain ⟨back, hrest', hoffset', hindex'⟩ := hbc
  refine ⟨front ++ back, ?_, ?_, ?_⟩
  · rw [hrest, hrest', List.append_assoc]
  · rw [hoffset', hoffset, Text.width_append]
    omega
  · rw [hindex', hindex, List.length_append]
    omega

theorem Reaches.offset_le {a c : Cursor} (h : a.Reaches c) : a.offset ≤ c.offset := by
  obtain ⟨gs, _, hoffset, _⟩ := h
  omega

theorem Reaches.between {a c : Cursor} (h : a.Reaches c) :
    a.rest = a.rest.take (c.index - a.index) ++ c.rest ∧
      c.offset = a.offset + Text.width (a.rest.take (c.index - a.index)) := by
  obtain ⟨gs, hrest, hoffset, hindex⟩ := h
  have htake : a.rest.take (c.index - a.index) = gs := by
    rw [hindex, Nat.add_sub_cancel_left, hrest]
    exact List.take_left
  rw [htake]
  exact ⟨hrest, hoffset⟩

theorem reaches_advance (c : Cursor) (n : Nat) : c.Reaches (c.advance n) := by
  induction n generalizing c with
  | zero => exact .refl c
  | succ n ih =>
      rw [advance]
      split
      · exact .refl c
      next g rest hrest =>
        refine Reaches.trans ⟨[g], ?_, ?_, rfl⟩ (ih _)
        · rw [hrest]
          rfl
        · simp

@[simp] theorem rest_advance (c : Cursor) (n : Nat) : (c.advance n).rest = c.rest.drop n := by
  induction n generalizing c with
  | zero => rfl
  | succ n ih =>
      rw [advance]
      split
      next hrest => rw [hrest, List.drop_nil]
      next g rest hrest => rw [ih, hrest, List.drop_succ_cons]

theorem index_advance {c : Cursor} {n : Nat} (h : n ≤ c.rest.length) :
    (c.advance n).index = c.index + n := by
  obtain ⟨gs, hrest, _, hindex⟩ := reaches_advance c n
  have hlength := congrArg List.length hrest
  rw [rest_advance, List.length_append, List.length_drop] at hlength
  omega

def origin (glyphs : List Glyph) : Cursor :=
  ⟨glyphs, 0, 1, 0, [], [], 0⟩

theorem reaches_start (glyphs : List Glyph) : (origin glyphs).Reaches (start glyphs) := by
  unfold start
  split
  next g rest =>
    split
    · exact ⟨[g], rfl, by simp [origin], rfl⟩
    · exact .refl _
  · exact .refl _

end Cursor

namespace Parse

def Moves {α : Type} (p : Parse α) : Prop :=
  forall c a c', p c = .ok (a, c') -> c.Reaches c'

namespace Moves

variable {α β : Type}

theorem pure {a : α} : Moves (Pure.pure a) := by
  intro c b c' hrun
  cases hrun
  exact .refl c

theorem fail : Moves (Parse.fail : Parse α) := by
  intro c a c' hrun
  cases hrun

theorem bind {p : Parse α} {f : α -> Parse β} (hp : Moves p) (hf : forall a, Moves (f a)) :
    Moves (p >>= f) := by
  intro c b c' hrun
  change (p c >>= fun r => f r.1 r.2) = .ok (b, c') at hrun
  cases hfirst : p c with
  | error e =>
      rw [hfirst] at hrun
      cases hrun
  | ok r =>
      rw [hfirst] at hrun
      exact (hp c r.1 r.2 hfirst).trans (hf r.1 r.2 b c' hrun)

theorem either {p q : Parse α} (hp : Moves p) (hq : Moves q) : Moves (Parse.either p q) := by
  intro c a c' hrun
  unfold Parse.either at hrun
  split at hrun
  next hr =>
    cases hrun
    exact hp c a c' hr
  · split at hrun
    next hr =>
      cases hrun
      exact hq c a c' hr
    · cases hrun

theorem attempt {p : Parse α} (hp : Moves p) : Moves (Parse.attempt p) := by
  intro c a c' hrun
  unfold Parse.attempt at hrun
  split at hrun
  next hr =>
    cases hrun
    exact hp c _ _ hr
  · cases hrun
    exact .refl c

theorem get : Moves (MonadState.get : Parse Cursor) := by
  intro c a c' hrun
  cases hrun
  exact .refl c

theorem noting {f : Cursor -> Cursor} (hf : forall c : Cursor, c.Reaches (f c)) :
    Moves (modify f : Parse Unit) := by
  intro c a c' hrun
  cases hrun
  exact hf c

/-!
# Tokens
-/

theorem move (n : Nat) : Moves (Parse.move n) :=
  noting fun c => c.reaches_advance n

theorem skip (ending : Bool) : Moves (Parse.skip ending) :=
  noting fun c => c.reaches_advance _

theorem here : Moves Parse.here :=
  (skip false).bind fun _ => get

theorem since (a : Cursor) : Moves (Parse.since a) :=
  get.bind fun _ => pure

theorem char? : Moves Parse.char? :=
  get.bind fun _ => pure

theorem ahead (n : Nat) : Moves (Parse.ahead n) :=
  get.bind fun _ => pure

theorem sees (s : String) : Moves (Parse.sees s) :=
  (ahead s.length).bind fun _ => pure

theorem word : Moves Parse.word :=
  get.bind fun _ => pure

theorem noteQualifier (x : Extent) : Moves (Parse.noteQualifier x) :=
  noting fun c => .refl c

theorem take (s : String) : Moves (Parse.take s) := by
  refine (sees s).bind fun found => ?_
  split
  · exact (move _).bind fun _ => pure
  · exact pure

theorem symbol (s : String) : Moves (Parse.symbol s) := by
  refine (skip false).bind fun _ => (take s).bind fun found => ?_
  split
  · exact pure
  · exact fail

theorem ident : Moves Parse.ident := by
  refine here.bind fun a => ?_
  dsimp only
  split
  · exact fail
  · exact (move _).bind fun _ => since a

theorem keyword (s : String) : Moves (Parse.keyword s) := by
  refine ident.bind fun x => ?_
  split
  · exact pure
  · exact fail

theorem terminator : Moves Parse.terminator := by
  refine (skip true).bind fun _ => char?.bind fun c => ?_
  split
  · exact pure
  · split
    · exact move 1
    · exact fail

theorem atTerminator : Moves Parse.atTerminator := by
  refine (skip true).bind fun _ => char?.bind fun c => ?_
  split
  · exact pure
  · exact pure

theorem literalOf (n : Nat) : Moves (Parse.literalOf n) := by
  refine get.bind fun a => ?_
  split
  · exact fail
  · exact (move n).bind fun _ => since a

theorem chars : Moves Parse.chars :=
  get.bind fun _ => pure

theorem stringLiteral : Moves Parse.stringLiteral :=
  (skip false).bind fun _ => chars.bind fun _ => literalOf _

theorem number : Moves Parse.number := by
  refine get.bind fun c => ?_
  dsimp only
  split
  · exact (literalOf _).bind fun _ => pure
  · split
    · exact (literalOf _).bind fun _ => pure
    · exact (literalOf _).bind fun _ => pure

theorem rune : Moves Parse.rune :=
  (ahead 13).bind fun _ => (literalOf _).bind fun _ => pure

/-!
# Readers that go back

A reader that finds nothing goes back to the place where it started.
-/

end Moves

/-- From places behind `b` the reader stays behind `b`, though it may go back as far as there. -/
def Stays {α : Type} (b : Cursor) (p : Parse α) : Prop :=
  forall c a c', b.Reaches c -> p c = .ok (a, c') -> b.Reaches c'

section Back

variable {α β : Type} {b : Cursor}

theorem Moves.stays {p : Parse α} (hp : Moves p) : Stays b p := by
  intro c a c' hc hrun
  exact hc.trans (hp c a c' hrun)

theorem Stays.bind {p : Parse α} {f : α -> Parse β} (hp : Stays b p)
    (hf : forall a, Stays b (f a)) : Stays b (p >>= f) := by
  intro c r c' hc hrun
  change (p c >>= fun r => f r.1 r.2) = .ok (r, c') at hrun
  cases hfirst : p c with
  | error e =>
      rw [hfirst] at hrun
      cases hrun
  | ok found =>
      rw [hfirst] at hrun
      exact hf found.1 found.2 r c' (hp c found.1 found.2 hc hfirst) hrun

theorem Stays.back : Stays b (set b : Parse PUnit) := by
  intro c a c' _ hrun
  cases hrun
  exact .refl b

theorem Moves.returning {f : Cursor -> Parse α} (hf : forall b, Stays b (f b)) :
    Moves (MonadState.get >>= f) := by
  intro c a c' hrun
  exact hf c c a c' (.refl c) hrun

end Back

namespace Moves

variable {α : Type}

theorem onward {p : Parse (Option α)} (hp : Moves p) (ending : Bool) :
    Moves (Parse.onward ending p) := by
  refine returning fun before => (skip ending).stays.bind fun _ => hp.stays.bind fun r => ?_
  cases r with
  | none => exact Stays.back.bind fun _ => pure.stays
  | some a => exact pure.stays

theorem follows (ending : Bool) (s : String) : Moves (Parse.follows ending s) := by
  refine returning fun before => (skip ending).stays.bind fun _ => (take s).stays.bind fun r => ?_
  split
  · exact pure.stays
  · exact Stays.back.bind fun _ => pure.stays

/-!
# Lists
-/

theorem manyWithin {step : Parse (Option α)} (hstep : Moves step) (fuel : Nat) :
    Moves (Parse.manyWithin step fuel) := by
  induction fuel with
  | zero => exact pure
  | succ fuel ih =>
      refine hstep.bind fun r => ?_
      cases r with
      | none => exact pure
      | some a => exact ih.bind fun _ => pure

theorem many {step : Parse (Option α)} (hstep : Moves step) : Moves (Parse.many step) :=
  get.bind fun c => manyWithin hstep (c.rest.length + 1)

theorem separated {item : Parse α} (hitem : Moves item) (close : String) :
    Moves (Parse.separated close item) := by
  refine (follows false close).bind fun found => ?_
  split
  · exact pure
  · refine hitem.bind fun _ => (many ?_).bind fun _ => pure
    refine (follows true close).bind fun found => ?_
    split
    · exact pure
    · refine terminator.bind fun _ => (follows false close).bind fun found => ?_
      split
      · exact pure
      · exact hitem.bind fun _ => pure

theorem terminated {item : Parse α} (hitem : Moves item) (close : String) :
    Moves (Parse.terminated close item) := by
  refine many ((follows false close).bind fun found => ?_)
  split
  · exact pure
  · exact hitem.bind fun _ => terminator.bind fun _ => pure

theorem commaList {item : Parse α} (hitem : Moves item) (ending : Bool) :
    Moves (Parse.commaList ending item) := by
  refine hitem.bind fun _ => (many ?_).bind fun _ => pure
  refine (follows ending ",").bind fun found => ?_
  split
  · exact hitem.bind fun _ => pure
  · exact pure

theorem moreTo {item : Parse α} (hitem : Moves item) (close : String) :
    Moves (do
      if ← Parse.follows false close then return none
      else
        Parse.symbol ","
        if ← Parse.follows false close then return none else return some (← item) :
      Parse (Option α)) := by
  refine (follows false close).bind fun found => ?_
  split
  · exact pure
  · refine (symbol ",").bind fun _ => (follows false close).bind fun found => ?_
    split
    · exact pure
    · exact hitem.bind fun _ => pure

theorem commaListTo {item : Parse α} (hitem : Moves item) (close : String) :
    Moves (Parse.commaListTo close item) := by
  refine (follows false close).bind fun found => ?_
  split
  · exact pure
  · refine (follows false ",").bind fun found => ?_
    split
    · exact (symbol close).bind fun _ => pure
    · exact hitem.bind fun _ => (many (moreTo hitem close)).bind fun _ => pure

end Moves
end Parse
end Source
end GoAtlas
