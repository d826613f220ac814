import Gridwalk.Proofs.StepLaws

/-!
# Passages of a frame

What a program does is put together from what its frames do between two cells. `Passes` says that
the innermost frame gets from one cell and store to another, whatever its callers are: passages
follow each other (`Passes.trans`), `Frame.stroll` computes those in which nothing is called, and a
call is a passage of the caller if its callee passes from its entry to its return
(`Passes.of_call`). A run whose first frame passes to its return succeeds
(`exists_run_of_passes`).
-/

namespace Gridwalk

def Frame.stroll : Nat → Frame → Store → Option (Frame × Store)
  | 0, frame, store => some (frame, store)
  | n + 1, frame, store =>
    match frame.current? with
    | none => none
    | some c =>
      match frame.effect c store with
      | .moves next after => stroll n next after
      | _ => none

namespace Machine

/-- The innermost frame gets from a frame and a store to others, and its callers stay as they
are. -/
def Passes (reg : Registry) (here there : Frame × Store) : Prop :=
  ∀ callers steps journal, ∃ n steps' journal',
    Runs reg n ⟨here.2, here.1 :: callers, steps, journal⟩
      ⟨there.2, there.1 :: callers, steps', journal'⟩

section
variable {reg : Registry} {here middle there : Frame × Store} {frame next last : Frame}
  {store after : Store} {c : Char} {n : Nat}

theorem Passes.refl (reg : Registry) (here : Frame × Store) : Passes reg here here :=
  fun _ steps journal => ⟨0, steps, journal, .zero⟩

theorem Passes.trans (h : Passes reg here middle) (h' : Passes reg middle there) :
    Passes reg here there := by
  intro callers steps journal
  obtain ⟨n, steps', journal', runs⟩ := h callers steps journal
  obtain ⟨m, steps'', journal'', runs'⟩ := h' callers steps' journal'
  exact ⟨n + m, steps'', journal'', runs.trans runs'⟩

instance : Trans (Passes reg) (Passes reg) (Passes reg) := ⟨Passes.trans⟩

theorem Passes.of_moves (hc : frame.current? = some c)
    (he : frame.effect c store = .moves next after) :
    Passes reg (frame, store) (next, after) := by
  intro callers steps journal
  obtain ⟨journal', hs⟩ := (Move.moves hc he : Move reg
    ⟨store, frame :: callers, steps, journal⟩ _ ⟨_, _, _, journal⟩).step_eq
  exact ⟨1, steps + 1, journal', .succ hs .zero⟩

theorem Passes.of_op {op : Op} (hc : frame.current? = some c) (hs : frame.inString = false)
    (hd : Command.decode c = .op op) (hr : op.run frame store = (.ok (), after)) :
    Passes reg (frame, store) (frame.advance, after) := by
  refine .of_moves hc ?_
  simp only [Frame.effect, hs, hd, hr, Bool.false_eq_true, ↓reduceIte]

theorem Passes.of_stroll (h : frame.stroll n store = some there) :
    Passes reg (frame, store) there := by
  induction n generalizing frame store with
  | zero =>
    cases h
    exact .refl reg _
  | succ n ih =>
    simp only [Frame.stroll] at h
    split at h
    next => cases h
    next c hc =>
      split at h
      next next after he => exact (Passes.of_moves hc he).trans (ih h)
      next => cases h

/-- A call leaves the caller behind the called character, with the velocity that the callee has left
on top of the velocity stack. -/
theorem Passes.of_call {box : Codebox} {vx vy : Int64} (hc : frame.current? = some c)
    (hs : frame.inString = false) (hr : Command.isReserved c = false)
    (hb : reg.get? (.command c) = some box)
    (h : Passes reg (.enter box (.command c), store.save frame)
      (last, { after with velocity := vy :: vx :: after.velocity }))
    (hl : last.current? = some '@') (hls : last.inString = false) :
    Passes reg (frame, store) ((frame.turn vx vy).advance, after) := by
  intro callers steps journal
  have he : frame.effect c store = .calls c := Frame.effect_eq_calls_iff.2 ⟨hs, hr, rfl⟩
  obtain ⟨called, hcall⟩ := (Move.calls hc he hb : Move reg
    ⟨store, frame :: callers, steps, journal⟩ _ ⟨_, _, _, journal⟩).step_eq
  obtain ⟨n, steps', journal', runs⟩ := h (frame :: callers) (steps + 1) called
  have hret : Move reg ⟨{ after with velocity := vy :: vx :: after.velocity },
      last :: frame :: callers, steps', journal'⟩ .running
      ⟨after, (frame.turn vx vy).advance :: callers, steps' + 1, journal'⟩ :=
    .resumes hl (Frame.effect_at_return hls) rfl
  obtain ⟨resumed, hret⟩ := hret.step_eq
  exact ⟨_, _, _, (Runs.succ hcall runs).trans (.succ hret .zero)⟩

/-- A run succeeds, but for its last flush, if its frame passes to a return. -/
theorem exists_run_of_passes {key : Key} {box : Codebox} (hb : reg.get? key = some box)
    (machine : Machine) (h : Passes reg (.enter box key, machine.store) (last, after))
    (hl : last.current? = some '@') (hls : last.inString = false) :
    ∃ fuel ending, ending.store = after ∧
      run reg fuel key machine = some (conclude key (.ok ()) ending) := by
  obtain ⟨n, steps, journal, runs⟩ : ∃ n steps journal,
      Runs reg n (machine.entered key box) ⟨after, [last], steps, journal⟩ :=
    h [] machine.steps (machine.entered key box).journal
  obtain ⟨journal', hend⟩ := (Move.ends hl (Frame.effect_at_return hls) : Move reg
    ⟨after, [last], steps, journal⟩ _ ⟨_, _, _, journal⟩).step_eq
  refine ⟨1 + n, ⟨after, [], steps + 1, journal'⟩, rfl, ?_⟩
  rw [run_of_some hb, runs.drive_eq, drive, hend]
  rfl

end

end Machine

end Gridwalk
