import Gridwalk.Proofs.ExactPointers

/-!
# Strings in a grid

Between two quotes every character is text: it pushes its code point and does nothing else, be it a
command, a call or a return. The characters of a string are those that the pointer comes across, in
whatever direction and however far apart; `Frame.Sees` names them by their exact places.

`runs_text` is the state after each of the characters, and `literal_pushes_text` the state after the
closing quote.
-/

namespace Gridwalk

-- ---------------------------------------------------------------------------
-- Places ahead of a pointer
-- ---------------------------------------------------------------------------

namespace Frame

/-- `n` moves from the pointer, at its exact place, there is the character `c`. Its coordinates are
words, as they are anywhere on an addressable grid (`sees_iff`). -/
def Sees (frame : Frame) (n : Nat) (c : Char) : Prop :=
  ∃ x y : Int64, x.toInt = frame.x.toInt + n * frame.vx.toInt ∧
    y.toInt = frame.y.toInt + n * frame.vy.toInt ∧ frame.codebox.cell? x.toInt y.toInt = some c

/-- The frame with its pointer `n` moves further; a coordinate stops at the end of its range. -/
def ahead (frame : Frame) (n : Nat) : Frame :=
  { frame with
    x := Word.saturate (frame.x.toInt + n * frame.vx.toInt)
    y := Word.saturate (frame.y.toInt + n * frame.vy.toInt) }

section
variable {frame : Frame} {n : Nat} {c : Char}

theorem sees_iff (h : frame.codebox.Addressable) :
    frame.Sees n c ↔
      frame.codebox.cell? (frame.x.toInt + n * frame.vx.toInt)
        (frame.y.toInt + n * frame.vy.toInt) = some c := by
  constructor
  · rintro ⟨x, y, hx, hy, hc⟩
    rwa [← hx, ← hy]
  · intro hc
    obtain ⟨hx, hy⟩ := h.lt_of_cell? hc
    have hx' := Word.toInt_saturate (n := frame.x.toInt + n * frame.vx.toInt) (by omega)
    have hy' := Word.toInt_saturate (n := frame.y.toInt + n * frame.vy.toInt) (by omega)
    exact ⟨_, _, hx', hy', by rwa [hx', hy']⟩

theorem advance_eq_ahead (frame : Frame) : frame.advance = frame.ahead 1 := by
  simp only [advance, ahead, Int.natCast_one, Int.one_mul]

theorem Sees.ahead_eq (h : frame.Sees n c) :
    (frame.ahead n).current? = some c ∧ (frame.ahead n).advance = frame.ahead (n + 1) := by
  obtain ⟨x, y, hx, hy, hc⟩ := h
  have hplace : frame.ahead n = { frame with x, y } := by
    rw [ahead, ← hx, ← hy, Word.saturate_toInt, Word.saturate_toInt]
  rw [hplace]
  refine ⟨hc, ?_⟩
  simp only [advance, ahead, hx, hy, Int.natCast_succ, Int.add_mul, Int.one_mul, Int.add_assoc]

end

end Frame

-- ---------------------------------------------------------------------------
-- Strings
-- ---------------------------------------------------------------------------

def Store.pushText (store : Store) (text : List Char) : Store :=
  { store with data := (text.map Word.ofChar).reverse ++ store.data }

theorem Store.pushText_concat (store : Store) (text : List Char) (c : Char) :
    store.pushText (text ++ [c]) = (store.pushText text).push (Word.ofChar c) := by
  simp [pushText, push]

namespace Machine

section
variable {reg : Registry} {machine : Machine} {frame : Frame} {callers : List Frame}
  {text : List Char}

theorem runs_of_moves {middle : Machine} {next : Frame} {left : Store} {n : Nat} {c : Char}
    (h : Runs reg n machine middle) (hf : middle.frames = frame :: callers)
    (hc : frame.current? = some c) (he : frame.effect c middle.store = .moves next left) :
    ∃ journal, Runs reg (n + 1) machine ⟨left, next :: callers, middle.steps + 1, journal⟩ := by
  obtain ⟨journal, hstep⟩ := step_of_moves reg hf hc he
  exact ⟨journal, h.trans (.succ hstep .zero)⟩

/-- Induction on how many characters have been read: each is pushed on what the characters before
it have left, and the pointer goes on inside the string. -/
theorem runs_text (reg : Registry) (hf : machine.frames = frame :: callers)
    (hs : frame.inString = false) (hopen : frame.current? = some '"')
    (htext : ∀ i (h : i < text.length), frame.Sees (i + 1) text[i] ∧ text[i] ≠ '"')
    {n : Nat} (hn : n ≤ text.length) :
    ∃ journal, Runs reg (n + 1) machine
      ⟨machine.store.pushText (text.take n),
        { frame.ahead (n + 1) with inString := true } :: callers,
        machine.steps + (n + 1), journal⟩ := by
  induction n with
  | zero =>
    have he : frame.effect '"' machine.store =
        .moves { frame.ahead 1 with inString := true } machine.store := by
      rw [← frame.advance_eq_ahead]
      simp only [Frame.effect, hs, Bool.false_eq_true, ↓reduceIte]
      rfl
    exact runs_of_moves .zero hf hopen he
  | succ n ih =>
    obtain ⟨journal, hruns⟩ := ih (Nat.le_of_succ_le hn)
    obtain ⟨hsees, hne⟩ := htext n hn
    obtain ⟨hc, hnext⟩ := hsees.ahead_eq
    have he : { frame.ahead (n + 1) with inString := true }.effect text[n]
          (machine.store.pushText (text.take n)) =
        .moves { frame.ahead (n + 2) with inString := true }
          (machine.store.pushText (text.take (n + 1))) := by
      rw [← hnext, ← List.take_append_getElem hn, Store.pushText_concat]
      simp only [Frame.effect, hne, ↓reduceIte]
      rfl
    exact runs_of_moves hruns rfl hc he

end

/-- Let the innermost frame stand outside strings on a quote, and let the characters ahead of it, by
their exact places and whatever its velocity is, be a text without quotes and then a quote. Then two
steps more than the text has characters push the code points of the text in order, and the frame is
behind the closing quote, outside strings and with its velocity. All else is as it was, whatever is
registered and whatever the characters would do outside strings. -/
theorem literal_pushes_text (reg : Registry) (machine : Machine) (frame : Frame)
    (callers : List Frame) (text : List Char) (hf : machine.frames = frame :: callers)
    (hs : frame.inString = false) (hopen : frame.current? = some '"')
    (htext : ∀ i (h : i < text.length), frame.Sees (i + 1) text[i] ∧ text[i] ≠ '"')
    (hclose : frame.Sees (text.length + 1) '"') :
    ∃ journal, Runs reg (text.length + 2) machine
      { store :=
          { machine.store with data := (text.map Word.ofChar).reverse ++ machine.store.data }
        frames :=
          { frame with
            x := Word.saturate (frame.x.toInt + (text.length + 2) * frame.vx.toInt)
            y := Word.saturate (frame.y.toInt + (text.length + 2) * frame.vy.toInt) } :: callers
        steps := machine.steps + (text.length + 2)
        journal } := by
  obtain ⟨journal, hruns⟩ := runs_text reg hf hs hopen htext (Nat.le_refl _)
  obtain ⟨hc, hnext⟩ := hclose.ahead_eq
  have he : { frame.ahead (text.length + 1) with inString := true }.effect '"'
        (machine.store.pushText text) =
      .moves (frame.ahead (text.length + 2)) (machine.store.pushText text) := by
    rw [← hnext]
    simp only [Frame.effect, ↓reduceIte, Effect.moves.injEq, and_true]
    cases frame
    cases hs
    rfl
  rw [List.take_length] at hruns
  exact runs_of_moves hruns rfl hc he

def slanting : Frame where
  codebox := ⟨"", 7, 0,
    ["\"      ", "  @    ", "    f  ", "      \""].map String.toList, ⟨"t", 1⟩⟩
  key := .main
  x := 0
  y := 0
  vx := 2
  vy := 1
  inString := false

theorem literal_pushes_text_slanting :
    ∃ journal, Runs ∅ 4 ⟨⟨[5], [], [], .unlimited⟩, [slanting], 0, .start .warn⟩
      ⟨⟨[0x66, 0x40, 5], [], [], .unlimited⟩, [{ slanting with x := 8, y := 4 }], 4, journal⟩ := by
  have hgrid : slanting.codebox.Addressable := by decide
  refine literal_pushes_text ∅ _ slanting [] ['@', 'f'] rfl rfl rfl ?_ ?_
  · intro i hi
    match i, hi with
    | 0, _ | 1, _ => exact ⟨(Frame.sees_iff hgrid).2 rfl, by simp⟩
  · exact (Frame.sees_iff hgrid).2 rfl

end Machine

end Gridwalk
