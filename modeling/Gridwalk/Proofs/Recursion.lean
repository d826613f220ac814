import Gridwalk.Proofs.StepLaws

/-!
# Runs as recursion

The language can be explained without a stack of frames. `Recursive.activate` starts a codebox and
walks its grid; a call is a recursive activation on the same store, after which the caller takes a
velocity from the velocity stack and walks on. Fuel bounds the depth of the recursion, and an
activation that never ends has no answer with any fuel.

`run_iff_recursive_run`: the machine's runs are these activations. They end for the same programs,
with the same result, store and number of commands, whatever frames the machine had before.
-/

namespace Gridwalk

structure Progress where
  store : Store
  steps : Nat

def Machine.progress (machine : Machine) : Progress := ⟨machine.store, machine.steps⟩

namespace Recursive

def activate (reg : Registry) (walk : Frame → Progress → Option (Except RunError Unit × Progress))
    (key : Key) (progress : Progress) : Option (Except RunError Unit × Progress) :=
  match reg.get? key with
  | none => some (.error (Machine.missing key), progress)
  | some box => walk (.enter box key) progress

/-- Goes on with `caller` once the call on its character `c` is over. What the callee has left on
the velocity stack is the caller's velocity now. -/
def resume (walk : Frame → Progress → Option (Except RunError Unit × Progress)) (caller : Frame)
    (c : Char) : Except RunError Unit × Progress → Option (Except RunError Unit × Progress)
  | (.error error, progress) => some (.error error, progress)
  | (.ok (), ⟨store, steps⟩) =>
    match store.velocity with
    | vy :: vx :: velocity => walk (caller.turn vx vy).advance ⟨{ store with velocity }, steps⟩
    | _ => some (.error (.velocityUnderflow c caller.site), ⟨{ store with velocity := [] }, steps⟩)

def walk (reg : Registry) : Nat → Frame → Progress → Option (Except RunError Unit × Progress)
  | 0, _, _ => none
  | fuel + 1, frame, ⟨store, steps⟩ =>
    match frame.current? with
    | none => some (.error (.outOfBounds frame.site), ⟨store, steps⟩)
    | some c =>
      match frame.effect c store with
      | .moves next store => walk reg fuel next ⟨store, steps + 1⟩
      | .fails error store => some (.error error, ⟨store, steps + 1⟩)
      | .returns => some (.ok (), ⟨store, steps + 1⟩)
      | .calls c => do
        let answer ← activate reg (walk reg fuel) (.command c) ⟨store.save frame, steps + 1⟩
        resume (walk reg fuel) frame c answer

/-- Flushes the output. The flush's error counts only if there is no other. -/
def finish : Except RunError Unit × Progress → Except RunError Unit × Progress
  | (result, ⟨store, steps⟩) =>
    let (flushed, sink) := store.sink.flush
    (result.bind fun _ => flushed.mapError .stream, ⟨{ store with sink }, steps⟩)

def run (reg : Registry) (fuel : Nat) (key : Key) (progress : Progress) :
    Option (Except RunError Unit × Progress) :=
  (activate reg (walk reg fuel) key progress).map finish

end Recursive

namespace Machine

open Recursive (activate resume walk finish)

-- ---------------------------------------------------------------------------
-- From evaluations to runs
-- ---------------------------------------------------------------------------

/-- What an answer of the evaluation of a frame says of a machine on which that frame stands above
`callers`: the machine gets to a return into `callers`, or to the same error. -/
inductive Agrees (reg : Registry) (machine : Machine) (callers : List Frame) :
    Except RunError Unit × Progress → Prop
  | returns {n last frame c} (runs : Runs reg n machine last)
    (hf : last.frames = frame :: callers) (hc : frame.current? = some c)
    (he : frame.effect c last.store = .returns) :
    Agrees reg machine callers (.ok (), ⟨last.store, last.steps + 1⟩)
  | fails {n last after error} (runs : Runs reg n machine last)
    (hs : step reg last = (.failed error, after)) :
    Agrees reg machine callers (.error error, after.progress)

section
variable {reg : Registry} {machine middle : Machine} {callers : List Frame} {frame : Frame}
  {progress : Progress} {n fuel : Nat} {answer : Except RunError Unit × Progress}

theorem Agrees.after_runs (h : Runs reg n machine middle) (ha : Agrees reg middle callers answer) :
    Agrees reg machine callers answer := by
  cases ha with
  | returns runs hf hc he => exact .returns (h.trans runs) hf hc he
  | fails runs hs => exact .fails (h.trans runs) hs

theorem Agrees.after_move {store : Store} {frames : List Frame} {steps : Nat}
    (h : Move reg machine .running ⟨store, frames, steps, machine.journal⟩)
    (ha : ∀ journal, Agrees reg ⟨store, frames, steps, journal⟩ callers answer) :
    Agrees reg machine callers answer := by
  obtain ⟨journal, hs⟩ := h.step_eq
  exact (ha journal).after_runs (.succ hs .zero)

theorem Agrees.of_failure {store : Store} {frames : List Frame} {steps : Nat} {error : RunError}
    (h : Move reg machine (.failed error) ⟨store, frames, steps, machine.journal⟩) :
    Agrees reg machine callers (.error error, ⟨store, steps⟩) := by
  obtain ⟨journal, hs⟩ := h.step_eq
  exact .fails .zero hs

def Mirrors (reg : Registry) (frame : Frame) (progress : Progress)
    (answer : Except RunError Unit × Progress) : Prop :=
  ∀ machine callers, machine.frames = frame :: callers → machine.progress = progress →
    Agrees reg machine callers answer

/-- A return into `caller` agrees with what the evaluation makes of the callee's answer, if the
walks of the evaluation agree with the machine. -/
theorem Agrees.of_resume
    {walk : Frame → Progress → Option (Except RunError Unit × Progress)} {caller : Frame}
    {c d : Char} {store : Store} {steps : Nat} {journal : Log.Journal}
    (hw : ∀ frame progress answer, walk frame progress = some answer →
      Mirrors reg frame progress answer)
    (hc : frame.current? = some c) (he : frame.effect c store = .returns)
    (hd : caller.current? = some d)
    (h : resume walk caller d (.ok (), ⟨store, steps + 1⟩) = some answer) :
    Agrees reg ⟨store, frame :: caller :: callers, steps, journal⟩ callers answer := by
  match hv : store.velocity with
  | vy :: vx :: velocity =>
    simp only [resume, hv] at h
    exact .after_move (.resumes hc he hv) fun _ => hw _ _ _ h _ _ rfl rfl
  | [] | [_] =>
    simp only [resume, hv] at h
    obtain rfl := Option.some.inj h
    rw [show d = caller.current?.getD '\uFFFD' by rw [hd]; rfl]
    exact .of_failure (.starves hc he (by simp [hv]))

theorem mirrors_of_walk (h : walk reg fuel frame progress = some answer) :
    Mirrors reg frame progress answer := by
  -- callees and the rest of a walk have less fuel, and they agree with whatever machine the step
  -- to them leads to
  induction fuel generalizing frame progress answer with
  | zero => nomatch h
  | succ fuel ih =>
    rintro ⟨store, frames, steps, journal⟩ callers hf rfl
    obtain rfl : frames = frame :: callers := hf
    simp only [walk, Machine.progress] at h
    cases hc : frame.current? with
    | none =>
      simp only [hc] at h
      obtain rfl := Option.some.inj h
      exact .of_failure (.strays hc)
    | some c =>
      simp only [hc] at h
      cases he : frame.effect c store with
      | moves next after =>
        simp only [he] at h
        exact .after_move (.moves hc he) fun _ => ih h _ _ rfl rfl
      | fails error after =>
        simp only [he] at h
        obtain rfl := Option.some.inj h
        exact .of_failure (.fails hc he)
      | returns =>
        simp only [he] at h
        obtain rfl := Option.some.inj h
        exact .returns .zero rfl hc he
      | calls d =>
        simp only [he] at h
        obtain ⟨middle, hm, h⟩ := Option.bind_eq_some_iff.1 h
        cases hb : reg.get? (.command d) with
        | none =>
          simp only [activate, hb] at hm
          obtain rfl := Option.some.inj hm
          obtain rfl := Option.some.inj h
          exact .of_failure (.misses hc he hb)
        | some box =>
          simp only [activate, hb] at hm
          refine .after_move (.calls hc he hb) ?_
          intro journal
          cases ih hm ⟨_, _, _, journal⟩ _ rfl rfl with
          | fails runs hs =>
            obtain rfl := Option.some.inj h
            exact .fails runs hs
          | @returns _ last _ _ runs hf hc' he' =>
            obtain ⟨store, frames, steps, journal⟩ := last
            obtain rfl := hf
            obtain ⟨-, -, rfl⟩ := Frame.effect_eq_calls_iff.1 he
            exact .after_runs runs (.of_resume (fun _ _ _ => ih) hc' he' hc h)

/-- A frame from which the machine gets to an answer has an evaluation with the same fuel. -/
theorem exists_walk_of_drive {result : Except RunError Unit × Machine}
    (hf : machine.frames = frame :: callers) (h : drive reg fuel machine = some result) :
    ∃ answer, walk reg fuel frame machine.progress = some answer := by
  induction fuel generalizing machine frame callers with
  | zero => nomatch h
  | succ fuel ih =>
    obtain ⟨store, frames, steps, journal⟩ := machine
    obtain rfl : frames = frame :: callers := hf
    simp only [walk, Machine.progress]
    cases hc : frame.current? with
    | none => exact ⟨_, rfl⟩
    | some c =>
      simp only
      cases he : frame.effect c store with
      | fails error after => exact ⟨_, rfl⟩
      | returns => exact ⟨_, rfl⟩
      | moves next after =>
        obtain ⟨_, h⟩ := (Move.moves hc he).drive_of_drive h
        exact ih rfl h
      | calls d =>
        cases hb : reg.get? (.command d) with
        | none => simp [activate, resume, hb]
        | some box =>
          obtain ⟨journal', h⟩ := (Move.calls hc he hb).drive_of_drive h
          obtain ⟨middle, hm⟩ := ih rfl h
          simp only [Machine.progress] at hm
          simp only [activate, hb, hm, bind, Option.bind_some]
          -- the callee's answer says how far the machine has got, and the fuel that was enough
          -- from the call on is enough from there on
          cases mirrors_of_walk hm ⟨_, _, _, journal'⟩ (frame :: callers) rfl rfl with
          | fails => exact ⟨_, rfl⟩
          | @returns _ last _ _ runs hf hc' he' =>
            obtain ⟨store, frames, steps, journal⟩ := last
            obtain rfl := hf
            have h := drive_add (runs.drive_of_drive h) 1
            match hv : store.velocity with
            | [] | [_] => simp [resume, hv]
            | vy :: vx :: velocity =>
              simp only [resume, hv]
              obtain ⟨_, h⟩ := (Move.resumes hc' he' hv).drive_of_drive h
              exact ih rfl h

-- ---------------------------------------------------------------------------
-- Whole runs
-- ---------------------------------------------------------------------------

theorem Agrees.exists_drive (h : Agrees reg machine [] answer) :
    ∃ fuel last, drive reg fuel machine = some (answer.1, last) ∧ last.progress = answer.2 := by
  cases h with
  | fails runs hs => exact ⟨_, _, by rw [runs.drive_eq 1, drive, hs], rfl⟩
  | @returns n last frame c runs hf hc he =>
    obtain ⟨store, frames, steps, journal⟩ := last
    obtain rfl := hf
    obtain ⟨journal', hs⟩ :=
      (Move.ends hc he : Move reg ⟨store, [frame], steps, journal⟩ _ ⟨_, _, _, journal⟩).step_eq
    exact ⟨_, _, by rw [runs.drive_eq 1, drive, hs], rfl⟩

theorem exists_drive_iff_walk (hf : machine.frames = [frame]) :
    (∃ fuel last, drive reg fuel machine = some (answer.1, last) ∧ last.progress = answer.2) ↔
      ∃ fuel, walk reg fuel frame machine.progress = some answer := by
  constructor
  · rintro ⟨fuel, last, hd, hp⟩
    obtain ⟨other, hw⟩ := exists_walk_of_drive hf hd
    obtain ⟨fuel', last', hd', hp'⟩ := (mirrors_of_walk hw machine [] hf rfl).exists_drive
    obtain ⟨hr, rfl⟩ := Prod.mk.inj (drive_unique hd hd')
    exact ⟨fuel, by rw [hw, Prod.ext hr.symm (hp'.symm.trans hp)]⟩
  · rintro ⟨fuel, hw⟩
    exact (mirrors_of_walk hw machine [] hf rfl).exists_drive

theorem finish_progress (key : Key) (result : Except RunError Unit) (machine : Machine) :
    finish (result, machine.progress) =
      ((conclude key result machine).1, (conclude key result machine).2.progress) := by
  cases result <;> rfl

end

/-- The machine's runs are the recursive evaluations: for every key and from every machine, with
whatever frames it has, a run ends with a result, a store and a number of commands exactly when the
evaluation of that key does. -/
theorem run_iff_recursive_run (reg : Registry) (key : Key) (machine : Machine)
    (answer : Except RunError Unit × Progress) :
    (∃ fuel, (run reg fuel key machine).map (fun (result, last) => (result, last.progress)) =
        some answer) ↔
      ∃ fuel, Recursive.run reg fuel key machine.progress = some answer := by
  unfold Recursive.run activate
  cases hb : reg.get? key with
  | none =>
    have hf := finish_progress key (.error (missing key)) { machine with frames := [] }
    simp only [run_of_none hb, Option.map_some, Option.some.injEq, exists_const]
    exact hf ▸ Iff.rfl
  | some box =>
    simp only [run_of_some hb, Option.map_map, Option.map_eq_some_iff]
    constructor
    · rintro ⟨fuel, ⟨result, last⟩, hd, rfl⟩
      have hw : ∃ enough, walk reg enough (.enter box key) (machine.entered key box).progress =
          some (result, last.progress) :=
        (exists_drive_iff_walk rfl).1 ⟨fuel, last, hd, rfl⟩
      obtain ⟨enough, hw⟩ := hw
      exact ⟨enough, _, hw, finish_progress key result last⟩
    · rintro ⟨fuel, ⟨result, progress⟩, hw, rfl⟩
      replace hw : walk reg fuel (.enter box key) (machine.entered key box).progress =
          some (result, progress) := hw
      obtain ⟨enough, last, hd, rfl⟩ := (exists_drive_iff_walk rfl).2 ⟨fuel, hw⟩
      exact ⟨enough, _, hd, (finish_progress key result last).symm⟩

end Machine

end Gridwalk
