import Gridwalk.Proofs.CallStack
import Gridwalk.Proofs.FailedSteps
import Gridwalk.Proofs.LineLaws
import Gridwalk.Proofs.Provenance

/-!
# Grids

No line checks the width of a border that closes a codebox. It is wide enough all the same: a name
and an entry line of that width have come before, and every row since was as wide. So a codebox that
is closed is a rectangle with its entry inside (`Closes.rectangular`), whatever comes of the load.

The machine looks a character up in the rows and never asks for the width. Over loaded registries
this makes no difference: a step is out of bounds exactly when its pointer is off the grid
(`loaded_grids_are_exact`).
-/

namespace Gridwalk

def Codebox.Holds (box : Codebox) (x y : Int) : Prop :=
  (0 ≤ x ∧ x < box.width) ∧ 0 ≤ y ∧ y < box.height

instance (box : Codebox) (x y : Int) : Decidable (box.Holds x y) :=
  inferInstanceAs (Decidable (_ ∧ _))

theorem Codebox.cell?_eq_none_iff {box : Codebox} (h : box.WellFormed) {x y : Int} :
    box.cell? x y = none ↔ ¬ box.Holds x y := by
  cases x with
  | negSucc x => simp [Codebox.cell?, Codebox.Holds]
  | ofNat x =>
    cases y with
    | negSucc y => simp [Codebox.cell?, Codebox.Holds]
    | ofNat y =>
      cases hrow : box.row? y with
      | none =>
        have hy : box.height ≤ y := List.getElem?_eq_none_iff.1 hrow
        simp [Codebox.cell?, Codebox.Holds, hrow, hy]
      | some row =>
        obtain ⟨hy, -⟩ := List.getElem?_eq_some_iff.1 hrow
        have hy : y < box.height := hy
        have hx : row.length = box.width := h.2 row (List.mem_of_getElem? hrow)
        simp [Codebox.cell?, Codebox.Holds, hrow, hy, hx]

-- ---------------------------------------------------------------------------
-- Closed codeboxes
-- ---------------------------------------------------------------------------

theorem Outline.Closes.rectangular {unit : String} {lines : List (List Char)} {draft : Draft}
    {box : Codebox} (h : Closes unit lines draft box) :
    3 ≤ draft.width ∧ box.width + 2 = draft.width ∧ box.WellFormed ∧
      Line.border draft.width ∈ lines := by
  obtain ⟨parts, drawing, rest, rfl, hwidth, rfl⟩ := h.drawn
  refine ⟨?_, hwidth.symm, drawing.wellFormed_codebox _, ?_⟩
  · rw [hwidth]
    unfold Drawing.width
    omega
  · rw [hwidth]
    simp [Drawing.lines]

-- ---------------------------------------------------------------------------
-- Steps
-- ---------------------------------------------------------------------------

theorem Fault.raise_ne_outOfBounds (fault : Fault) (c : Char) (site place : Site) :
    fault.raise c site ≠ .outOfBounds place := by
  cases fault <;> nofun

namespace Machine

section
variable {reg : Registry} {machine after : Machine} {frame : Frame} {callers : List Frame}
  {site : Site}

theorem Move.outOfBounds (h : Move reg machine (.failed (.outOfBounds site)) after)
    (hf : machine.frames = frame :: callers) : site = frame.site ∧ frame.current? = none := by
  generalize he : RunError.outOfBounds site = error at h
  cases h with
  | strays hc =>
    obtain ⟨rfl, -⟩ := List.cons.inj hf
    exact ⟨RunError.outOfBounds.inj he, hc⟩
  | fails hc hfails =>
    obtain ⟨op, fault, -, -, hraise⟩ := Frame.op_of_effect_fails hfails
    exact absurd (he.trans hraise).symm (fault.raise_ne_outOfBounds _ _ _)
  | misses => nomatch he
  | starves => nomatch he

theorem step_outOfBounds_iff (hf : machine.frames = frame :: callers) :
    (step reg machine).1 = .failed (.outOfBounds site) ↔
      site = frame.site ∧ frame.current? = none := by
  constructor
  · intro he
    exact (he ▸ move_step reg machine).outOfBounds hf
  · rintro ⟨rfl, hc⟩
    simp only [step, hf, hc]

end

end Machine

theorem Frame.holds_enter_iff {box : Codebox} (h : box.WellFormed)
    (hs : box.entry < 0x8000000000000000) (key : Key) :
    box.Holds (Frame.enter box key).x.toInt (Frame.enter box key).y.toInt ↔ box.height ≠ 0 := by
  have hx : (Frame.enter box key).x.toInt = box.entry := Int64.toInt_ofNat_of_lt hs
  have hy : (Frame.enter box key).y.toInt = 0 := rfl
  have hentry := h.1
  rw [hx, hy]
  unfold Codebox.Holds
  omega

-- ---------------------------------------------------------------------------
-- Loaded codeboxes
-- ---------------------------------------------------------------------------

/-- No text has more characters than a word can count, as no text that is stored anywhere does. -/
def Source.Bounded (source : Source) : Prop :=
  ∀ unit text, source.read unit = .ok text → text.length < 0x8000000000000000

namespace Loader

section
variable {loader : Loader} {source : Source} {unit : String} {journal : Log.Journal}
  {reg : Registry} {box : Codebox}

theorem wellFormed_of_load (h : (loader.load source unit journal).1 = .ok reg)
    (hb : box ∈ reg.boxes) : box.WellFormed := by
  obtain ⟨other, text, draft, -, -, hcloses⟩ := closes_of_load h hb
  exact hcloses.rectangular.2.2.1

theorem width_lt_of_load (h : (loader.load source unit journal).1 = .ok reg)
    (hb : box ∈ reg.boxes) (hs : source.Bounded) : box.width < 0x8000000000000000 := by
  obtain ⟨other, text, draft, -, htext, hcloses⟩ := closes_of_load h hb
  obtain ⟨-, hwidth, -, hborder⟩ := hcloses.rectangular
  have hline := Text.length_le_of_mem_lines hborder
  have htotal := hs other text htext
  rw [Line.length_border] at hline
  omega

end

open Machine (Reachable step) in
/-- A border that closes a codebox has at least three characters, two more than the codebox is
wide; the entry is below the width and every row has it. All that a load meets in the way of
codeboxes, also one that fails later, has been closed like this.

So in every machine that calls and steps lead to over a loaded registry, a step is out of bounds
exactly when the innermost pointer is off the grid, and at the start of a frame exactly when the
grid has no rows. -/
theorem loaded_grids_are_exact (source : Source) :
    (∀ unit lines draft box, Outline.Closes unit lines draft box →
      3 ≤ draft.width ∧ box.width + 2 = draft.width ∧
        box.entry < box.width ∧ ∀ row ∈ box.rows, row.length = box.width) ∧
    (∀ unit box, .ok (.box box) ∈ (source.plan unit).trace →
      ∃ other text draft, source.Reaches unit other ∧ source.read other = .ok text ∧
        Outline.Closes other (Text.lines text) draft box) ∧
    ∀ loader unit journal reg, (load loader source unit journal).1 = .ok reg →
      ∀ latest machine frame callers, Reachable reg latest machine →
        machine.frames = frame :: callers →
        (∀ site, (step reg machine).1 = .failed (.outOfBounds site) ↔
          site = frame.site ∧ ¬ frame.codebox.Holds frame.x.toInt frame.y.toInt) ∧
        (source.Bounded → frame = .enter frame.codebox frame.key →
          ((∃ site, (step reg machine).1 = .failed (.outOfBounds site)) ↔
            frame.codebox.height = 0)) := by
  refine ⟨?_, fun _ _ => Source.closes_of_mem_trace, ?_⟩
  · intro unit lines draft box hcloses
    obtain ⟨hthree, hwidth, hwell, -⟩ := hcloses.rectangular
    exact ⟨hthree, hwidth, hwell⟩
  · intro loader unit journal reg hload latest machine frame callers hreach hf
    have hm : frame ∈ machine.frames := hf ▸ List.mem_cons_self
    have hget := hreach.stacked.registered hm
    have hbox : frame.codebox ∈ reg.boxes :=
      Registry.mem_boxes_iff.2 (Registry.key_of_get? hget ▸ hget)
    have hwell := wellFormed_of_load hload hbox
    have hexact : ∀ site, (step reg machine).1 = .failed (.outOfBounds site) ↔
        site = frame.site ∧ ¬ frame.codebox.Holds frame.x.toInt frame.y.toInt := by
      intro site
      rw [Machine.step_outOfBounds_iff hf, ← Codebox.cell?_eq_none_iff hwell]
      rfl
    refine ⟨hexact, ?_⟩
    intro hbound henter
    have hentry : frame.codebox.entry < 0x8000000000000000 :=
      Nat.lt_trans hwell.1 (width_lt_of_load hload hbox hbound)
    have hholds := Frame.holds_enter_iff hwell hentry frame.key
    rw [← henter] at hholds
    simp only [hexact, exists_eq_left, hholds, not_not]

def cliff : String := "###\n# #\n#v#\n#1#\n###\n"

def cliffBox : Codebox := ⟨"", 1, 0, [['1']], ⟨"m", 1⟩⟩

open Machine (Reachable entered start step) in
theorem loaded_grids_are_exact_cliff :
    ∃ reg, (lenient.load (.ofUnits [("m", cliff)]) "m" (.start .warn)).1 = .ok reg ∧
      ∀ machine, machine = entered (start [] [] [] .unlimited (.start .warn)) .main cliffBox →
        (∀ site, (step reg machine).1 ≠ .failed (.outOfBounds site)) ∧
        (step reg (step reg machine).2).1 = .failed (.outOfBounds .main) := by
  have hr : (Source.ofUnits [("m", cliff)]).read "m" = .ok cliff := rfl
  have hd : Drawn [.box ⟨[' '], 0, 0, [['1']], rfl, by decide, by decide⟩] (Text.lines cliff) := by
    rfl
  have hload : (lenient.load (.ofUnits [("m", cliff)]) "m" (.start .warn)).1 =
      .ok (.ofList [cliffBox]) := load_of_drawn rfl hr hd (.start .warn)
  have hc : Source.Bounded (.ofUnits [("m", cliff)]) := by
    intro unit text htext
    have hm := Source.mem_texts _ unit text htext
    obtain rfl : text = cliff := List.mem_singleton.1 hm
    decide
  refine ⟨_, hload, ?_⟩
  rintro machine rfl
  have hstart : Reachable (.ofList [cliffBox]) (some .main)
      (entered (start [] [] [] .unlimited (.start .warn)) .main cliffBox) := .entering .fresh rfl
  obtain ⟨-, -, hgrids⟩ := loaded_grids_are_exact (.ofUnits [("m", cliff)])
  constructor
  · intro site hsite
    have hfirst := (hgrids _ _ _ _ hload _ _ _ _ hstart rfl).2 hc rfl
    exact absurd (hfirst.1 ⟨site, hsite⟩) (by decide)
  · refine ((hgrids _ _ _ _ hload _ _ _ _ hstart.stepped rfl).1 .main).2 ⟨rfl, ?_⟩
    decide

end Loader

end Gridwalk
