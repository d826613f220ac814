import Gridwalk.Proofs.StepLaws

/-!
# What lies below the stacks

Commands work at the top of the two stacks. Further values below make no difference to a command
that finds what it takes, and since callers keep their velocities on the velocity stack, above those
values, none to calls and returns either. Only a debug dump shows them, and only a command that
takes too much would reach them.

`Shallow` says this of what commands do to the store; it is closed under the ways in which commands
are put together. `step_atop` says it of steps and `run_atop` of whole runs.
-/

namespace Gridwalk

-- ---------------------------------------------------------------------------
-- Commands
-- ---------------------------------------------------------------------------

def Fault.isUnderflow : Fault → Bool
  | .stackUnderflow | .velocityUnderflow => true
  | _ => false

def RunError.isUnderflow : RunError → Bool
  | .stackUnderflow .. | .velocityUnderflow .. => true
  | _ => false

@[simp] theorem Fault.isUnderflow_raise (fault : Fault) (c : Char) (site : Site) :
    (fault.raise c site).isUnderflow = fault.isUnderflow := by
  cases fault <;> rfl

namespace Store

def atop (store : Store) (data velocity : List Int64) : Store :=
  { store with data := store.data ++ data, velocity := store.velocity ++ velocity }

/-- What `f` does to a store does not depend on what lies below the stacks, unless `f` takes more
than there is. -/
def Shallow (data velocity : List Int64) (f : Store → Except Fault Unit × Store) : Prop :=
  ∀ store result after, f store = (result, after) →
    (∀ fault, result = .error fault → fault.isUnderflow = false) →
    f (store.atop data velocity) = (result, after.atop data velocity)

section
variable {data velocity : List Int64}

theorem shallow_of_comm {f : Store → Except Fault Unit × Store}
    (hf : ∀ store, f (store.atop data velocity) = ((f store).1, (f store).2.atop data velocity)) :
    Shallow data velocity f := by
  rintro store result after h -
  rw [hf, h]

theorem shallow_push (value : Int64) :
    Shallow data velocity fun store => (.ok (), store.push value) :=
  shallow_of_comm fun _ => rfl

theorem shallow_pushChecked (result : Option Int64) :
    Shallow data velocity fun store => store.pushChecked result := by
  refine shallow_of_comm fun store => ?_
  cases result <;> rfl

theorem shallow_write (text : String) : Shallow data velocity fun store => store.write text := by
  refine shallow_of_comm fun store => ?_
  simp only [write, atop]
  split <;> rfl

theorem shallow_read : Shallow data velocity read := by
  refine shallow_of_comm fun store => ?_
  simp only [read, atop]
  split
  · rfl
  · split <;> rfl

theorem shallow_take {f : Int64 → Store → Except Fault Unit × Store}
    (hf : ∀ a, Shallow data velocity (f a)) : Shallow data velocity fun store => store.take f := by
  intro store result after h hu
  unfold take at h ⊢
  cases hd : store.data with
  | nil =>
    simp only [hd] at h
    cases h
    cases hu _ rfl
  | cons a rest =>
    simp only [hd] at h
    simp only [atop, hd, List.cons_append]
    exact hf a _ result after h hu

theorem shallow_takeTwo {f : Int64 → Int64 → Store → Except Fault Unit × Store}
    (hf : ∀ a b, Shallow data velocity (f a b)) :
    Shallow data velocity fun store => store.takeTwo f :=
  shallow_take fun a => shallow_take fun b => hf a b

end

end Store

open Store in
theorem Op.shallow_run {data velocity : List Int64} (frame : Frame) {op : Op} (h : op ≠ .debug) :
    Store.Shallow data velocity fun store => op.run frame store := by
  cases op with
  | nop => exact shallow_of_comm fun _ => rfl
  | push value => exact shallow_push value
  | add | subtract | multiply => exact shallow_takeTwo fun a b => shallow_pushChecked _
  | divide =>
    refine shallow_takeTwo fun a b => ?_
    by_cases ha : a = 0
    · simp only [ha, ↓reduceIte]
      exact shallow_of_comm fun _ => rfl
    · simp only [ha, ↓reduceIte]
      exact shallow_pushChecked _
  | positive => exact shallow_take fun a => shallow_push _
  | duplicate | discard | toVelocity =>
    simp only [Op.run]
    exact shallow_take fun a => shallow_of_comm fun _ => rfl
  | swap => exact shallow_takeTwo fun a b => shallow_of_comm fun _ => rfl
  | fromVelocity =>
    intro store result after h hu
    simp only [Op.run] at h ⊢
    cases hv : store.velocity with
    | nil =>
      simp only [hv] at h
      cases h
      cases hu _ rfl
    | cons v rest =>
      simp only [hv] at h
      cases h
      simp only [atop, hv, List.cons_append]
      rfl
  | input => exact shallow_read
  | output =>
    simp only [Op.run]
    refine shallow_take fun a => ?_
    cases Word.toChar? a with
    | none => exact shallow_of_comm fun _ => rfl
    | some c => exact shallow_write _
  | debug => exact absurd rfl h

-- ---------------------------------------------------------------------------
-- Steps
-- ---------------------------------------------------------------------------

def Effect.atop (data velocity : List Int64) : Effect → Effect
  | .moves frame store => .moves frame (store.atop data velocity)
  | .fails error store => .fails error (store.atop data velocity)
  | .calls c => .calls c
  | .returns => .returns

theorem Frame.effect_atop {frame : Frame} {c : Char} {store : Store}
    (hq : frame.inString = false → Command.decode c ≠ .op .debug)
    (hu : ∀ error after, frame.effect c store = .fails error after → error.isUnderflow = false)
    (data velocity : List Int64) :
    frame.effect c (store.atop data velocity) = (frame.effect c store).atop data velocity := by
  unfold Frame.effect at hu ⊢
  cases hs : frame.inString with
  | true =>
    simp only [↓reduceIte]
    split <;> rfl
  | false =>
    simp only [hs, Bool.false_eq_true, ↓reduceIte] at hu ⊢
    cases hd : Command.decode c with
    | quote | ret | call => rfl
    | op op =>
      simp only [hd] at hu ⊢
      have hop : op ≠ .debug := fun he => hq hs (he ▸ hd)
      rcases hr : op.run frame store with ⟨result, after⟩
      have hatop :
          op.run frame (store.atop data velocity) = (result, after.atop data velocity) := by
        refine Op.shallow_run frame hop store result after hr ?_
        rintro fault rfl
        simp only [hr] at hu
        exact (Fault.isUnderflow_raise fault c frame.site).symm.trans (hu _ _ rfl)
      simp only [hatop]
      cases result <;> rfl

namespace Machine

def atop (machine : Machine) (data velocity : List Int64) : Machine :=
  { machine with store := machine.store.atop data velocity }

section
variable {reg : Registry} {machine after : Machine} {outcome : Outcome} {frame : Frame} {c : Char}

theorem call_atop (h : call reg machine frame c = (outcome, after)) (data velocity : List Int64) :
    call reg (machine.atop data velocity) frame c = (outcome, after.atop data velocity) := by
  unfold call at h ⊢
  cases hb : reg.get? (.command c) with
  | none =>
    simp only [hb] at h ⊢
    cases h
    rfl
  | some box =>
    simp only [hb] at h ⊢
    cases h
    rfl

theorem ret_atop (h : machine.ret frame = (outcome, after))
    (hu : ∀ error, outcome = .failed error → error.isUnderflow = false)
    (data velocity : List Int64) :
    (machine.atop data velocity).ret frame = (outcome, after.atop data velocity) := by
  obtain ⟨store, frames, steps, journal⟩ := machine
  cases frames with
  | nil =>
    cases h
    rfl
  | cons caller callers =>
    simp only [ret, note] at h
    rcases hv : store.velocity with _ | ⟨vy, _ | ⟨vx, rest⟩⟩
    case cons.cons =>
      simp only [hv] at h
      cases h
      simp only [ret, note, atop, Store.atop, hv, List.cons_append]
    all_goals
      simp only [hv] at h
      cases h
      cases hu _ rfl

theorem step_atop (h : step reg machine = (outcome, after))
    (hq : machine.command? ≠ some (.op .debug))
    (hu : ∀ error, outcome = .failed error → error.isUnderflow = false)
    (data velocity : List Int64) :
    step reg (machine.atop data velocity) = (outcome, after.atop data velocity) := by
  -- the journals agree as well, of which moves say nothing, so the step itself is opened
  obtain ⟨store, frames, steps, journal⟩ := machine
  cases frames with
  | nil =>
    cases h
    rfl
  | cons frame callers =>
    cases hc : frame.current? with
    | none =>
      simp only [step, hc] at h
      cases h
      simp only [step, atop, hc]
    | some c =>
      simp only [step, hc, execute_eq] at h
      simp only [step, atop, hc, execute_eq]
      have hatop : frame.effect c (store.atop data velocity) =
          (frame.effect c store).atop data velocity := by
        refine Frame.effect_atop ?_ ?_ data velocity
        · intro hs hd
          simp [command?, hs, hc, hd] at hq
        · intro error left he
          simp only [he] at h
          cases h
          exact hu _ rfl
      cases he : frame.effect c store with
      | moves next left =>
        simp only [he] at h
        cases h
        simp only [hatop, he, Effect.atop]
        rfl
      | fails error left =>
        simp only [he] at h
        cases h
        simp only [hatop, he, Effect.atop]
        rfl
      | calls d =>
        simp only [he] at h
        simp only [hatop, he, Effect.atop]
        exact call_atop h data velocity
      | returns =>
        simp only [he] at h
        simp only [hatop, he, Effect.atop]
        exact ret_atop h hu data velocity

end

-- ---------------------------------------------------------------------------
-- Runs
-- ---------------------------------------------------------------------------

section
variable {reg : Registry} {fuel : Nat} {key : Key} {machine last : Machine}
  {result : Except RunError Unit}

theorem drive_atop (h : drive reg fuel machine = some (result, last))
    (hq : .op .debug ∉ commands reg fuel machine)
    (hu : ∀ error, result = .error error → error.isUnderflow = false)
    (data velocity : List Int64) :
    drive reg fuel (machine.atop data velocity) = some (result, last.atop data velocity) := by
  induction fuel generalizing machine with
  | zero => cases h
  | succ fuel ih =>
    rcases hs : step reg machine with ⟨outcome, next⟩
    simp only [drive, hs] at h
    simp only [commands, hs, List.mem_append, Option.mem_toList, not_or] at hq
    obtain ⟨hcommand, hrest⟩ := hq
    cases outcome with
    | running =>
      have hatop := step_atop hs hcommand (by simp) data velocity
      simp only [drive, hatop]
      exact ih h hrest
    | finished =>
      cases h
      have hatop := step_atop hs hcommand (by simp) data velocity
      simp only [drive, hatop]
    | failed error =>
      cases h
      have hatop := step_atop hs hcommand (by simpa using hu) data velocity
      simp only [drive, hatop]

@[simp] theorem conclude_atop (key : Key) (result : Except RunError Unit) (machine : Machine)
    (data velocity : List Int64) :
    conclude key result (machine.atop data velocity) =
      ((conclude key result machine).1, (conclude key result machine).2.atop data velocity) := by
  cases result <;> rfl

/-- A run that carries out no debug dump and does not fail for want of a value does the same
whatever lies below the stacks: it ends after as many steps with the same result, the same output
and input left and the same frames, and what lay below its stacks still lies there. -/
theorem run_atop (h : run reg fuel key machine = some (result, last))
    (hq : .op .debug ∉ runCommands reg fuel key machine)
    (hu : ∀ error, result = .error error → error.isUnderflow = false)
    (data velocity : List Int64) :
    run reg fuel key (machine.atop data velocity) = some (result, last.atop data velocity) := by
  rcases run_cases h with ⟨hb, he⟩ | ⟨codebox, driven, final, hb, hd, he⟩
  · cases he
    rw [run_of_none hb]
    rfl
  · simp only [runCommands, hb] at hq
    have hdriven : ∀ error, driven = .error error → error.isUnderflow = false := by
      rintro error rfl
      cases he
      exact hu error rfl
    have hatop := drive_atop hd hq hdriven data velocity
    have hstart : (machine.atop data velocity).entered key codebox =
        (machine.entered key codebox).atop data velocity := rfl
    simp only [run_of_some hb, hstart, hatop, Option.map_some, conclude_atop, ← he]

end

def sums : Registry := .ofList
  [⟨"", 1, 0, [['f'], ['+'], ['@']], ⟨"t", 1⟩⟩, ⟨"f", 1, 0, [['4'], ['g'], ['@']], ⟨"t", 8⟩⟩,
    ⟨"g", 1, 0, [['}'], ['{'], ['@']], ⟨"t", 15⟩⟩]

theorem run_atop_sums :
    ∃ last, run sums 10 .main ((start [3] [] [] .unlimited (.start .warn)).atop [5, -9] [8]) =
        some (.ok (), last) ∧
      last.store.data = [7, 5, -9] ∧ last.store.velocity = [8] ∧ last.steps = 9 := by
  obtain ⟨last, hlast, hdata, hvelocity, hsteps⟩ :
      ∃ last, run sums 10 .main (start [3] [] [] .unlimited (.start .warn)) =
          some (.ok (), last) ∧
        last.store.data = [7] ∧ last.store.velocity = [] ∧ last.steps = 9 :=
    ⟨_, rfl, rfl, rfl, rfl⟩
  refine ⟨_, run_atop hlast (by decide) (by simp) [5, -9] [8], ?_, ?_, hsteps⟩
  · simp [atop, Store.atop, hdata]
  · simp [atop, Store.atop, hvelocity]

end Machine

end Gridwalk
