import Gridwalk.Proofs.StepLaws

/-!
# What a failed step leaves

A step that fails is over for its frame but not for the machine: the callers stay, and later steps
and calls go on with the store as the failed step has left it. What a command has taken by the time
it fails stays taken. `Residue` lists, for each error, what is left of the store; every failed step
leaves just that and the frames of the callers (`failed_step_leaves`).
-/

namespace Gridwalk

-- ---------------------------------------------------------------------------
-- What is left of the store
-- ---------------------------------------------------------------------------

/-- `Residue frame store error after`: when a step of `frame` fails with `error`, `after` is what it
leaves of `store`. Streams change only where they fail. -/
inductive Residue (frame : Frame) (store : Store) : RunError → Store → Prop
  | outOfBounds {site} : Residue frame store (.outOfBounds site) store
  | commandNotFound {c} :
    Residue frame store (.commandNotFound c)
      { store with velocity := frame.vy :: frame.vx :: store.velocity }
  | velocityUnderflow {c site} (scarce : store.velocity.length < 2) :
    Residue frame store (.velocityUnderflow c site) { store with velocity := [] }
  | stackUnderflow {c site} (scarce : store.data.length < 2) :
    Residue frame store (.stackUnderflow c site) { store with data := [] }
  | divisionByZero {a b data site} (taken : store.data = a :: b :: data) :
    Residue frame store (.divisionByZero site) { store with data }
  | overflow {a b data c site} (taken : store.data = a :: b :: data) :
    Residue frame store (.overflow c site) { store with data }
  | invalidCharacter {a data site} (taken : store.data = a :: data) :
    Residue frame store (.invalidCharacter a site) { store with data }
  | output {error a data sink} (command : frame.current? = some 'o')
    (taken : store.data = a :: data) :
    Residue frame store (.stream error) { store with data, sink }
  | input {error input sink} (command : frame.current? = some 'i')
    (unwritten : sink.written = store.sink.written) :
    Residue frame store (.stream error) { store with input, sink }
  | debug {error sink} (command : frame.current? = some '!') :
    Residue frame store (.stream error) { store with sink }

def RunError.commands : RunError → Nat
  | .outOfBounds _ => 0
  | _ => 1

namespace Residue

section
variable {frame : Frame} {store after : Store} {fault : Fault} {c : Char} {site : Site}

theorem of_take {f : Int64 → Store → Except Fault Unit × Store}
    (h : store.take f = (.error fault, after))
    (hf : ∀ a data, store.data = a :: data → f a { store with data } = (.error fault, after) →
      Residue frame store (fault.raise c site) after) :
    Residue frame store (fault.raise c site) after := by
  cases hd : store.data with
  | cons a data =>
    simp only [Store.take, hd] at h
    exact hf a data hd h
  | nil =>
    simp only [Store.take, hd] at h
    cases h
    have hleft : Residue frame store (.stackUnderflow c site) { store with data := [] } :=
      .stackUnderflow (by simp [hd])
    rwa [← hd] at hleft

theorem of_takeTwo {f : Int64 → Int64 → Store → Except Fault Unit × Store}
    (h : store.takeTwo f = (.error fault, after))
    (hf : ∀ a b data, store.data = a :: b :: data →
      f a b { store with data } = (.error fault, after) →
      Residue frame store (fault.raise c site) after) :
    Residue frame store (fault.raise c site) after := by
  refine of_take h fun a rest hd h => ?_
  cases rest with
  | cons b data => exact hf a b data hd h
  | nil =>
    cases h
    exact .stackUnderflow (by simp [hd])

theorem of_pushChecked {a b : Int64} {data : List Int64} {result : Option Int64}
    (hd : store.data = a :: b :: data)
    (h : { store with data }.pushChecked result = (.error fault, after)) :
    Residue frame store (fault.raise c site) after := by
  unfold Store.pushChecked at h
  split at h
  · cases h
    exact .overflow hd
  · cases h

end

section
variable {frame : Frame} {store after : Store} {error : RunError}

theorem data_suffix (h : Residue frame store error after) : after.data <:+ store.data := by
  cases h with
  | outOfBounds | commandNotFound | velocityUnderflow | input | debug => exact List.suffix_rfl
  | stackUnderflow => exact List.nil_suffix
  | divisionByZero taken | overflow taken => exact taken ▸ List.suffix_append [_, _] _
  | invalidCharacter taken | output _ taken => exact taken ▸ List.suffix_cons _ _

theorem streams_eq (h : Residue frame store error after) (hs : ∀ cause, error ≠ .stream cause) :
    after.input = store.input ∧ after.sink = store.sink := by
  cases h with
  | output | input | debug => exact absurd rfl (hs _)
  | _ => exact ⟨rfl, rfl⟩

end

end Residue

theorem Store.write_error {store after : Store} {text : String} {fault : Fault}
    (h : store.write text = (.error fault, after)) :
    ∃ error sink, fault = .stream error ∧ after = { store with sink } := by
  unfold Store.write at h
  split at h
  · cases h
    exact ⟨_, _, rfl, rfl⟩
  · cases h

theorem Store.read_error {store after : Store} {fault : Fault}
    (h : store.read = (.error fault, after)) :
    ∃ error input sink, fault = .stream error ∧ after = { store with input, sink } ∧
      sink.written = store.sink.written := by
  have hflush : store.sink.flush.2.written = store.sink.written := by
    unfold Stream.Sink.flush
    simp only
    split <;> rfl
  unfold Store.read at h
  split at h
  next hf =>
    cases h
    exact ⟨_, _, _, rfl, rfl, by rw [← hflush, hf]⟩
  next hf =>
    split at h
    · cases h
      exact ⟨_, _, _, rfl, rfl, by rw [← hflush, hf]⟩
    · cases h

theorem Command.eq_of_decode_stream {c : Char} {op : Op} (h : Command.decode c = .op op) :
    (op = .input → c = 'i') ∧ (op = .output → c = 'o') ∧ (op = .debug → c = '!') := by
  unfold Command.decode at h
  split at h <;> cases h <;> simp

theorem Op.residue_run {frame : Frame} {store after : Store} {fault : Fault} {c : Char} {op : Op}
    (hc : frame.current? = some c) (hd : Command.decode c = .op op)
    (h : op.run frame store = (.error fault, after)) :
    Residue frame store (fault.raise c frame.site) after := by
  obtain ⟨hinput, houtput, hdebug⟩ := Command.eq_of_decode_stream hd
  cases op with
  | nop | push => cases h
  | add | subtract | multiply => exact .of_takeTwo h fun a b data hd h => .of_pushChecked hd h
  | divide =>
    refine .of_takeTwo h fun a b data hd h => ?_
    split at h
    · cases h
      exact .divisionByZero hd
    · exact .of_pushChecked hd h
  | positive | duplicate | discard | toVelocity =>
    simp only [Op.run] at h
    exact .of_take h fun a data hd h => by cases h
  | swap => exact .of_takeTwo h fun a b data hd h => by cases h
  | fromVelocity =>
    simp only [Op.run] at h
    split at h
    next hv =>
      cases h
      have hleft : Residue frame store (.velocityUnderflow c frame.site)
          { store with velocity := [] } := .velocityUnderflow (by simp [hv])
      rwa [← hv] at hleft
    next => cases h
  | input =>
    obtain ⟨error, input, sink, rfl, rfl, hw⟩ := Store.read_error h
    obtain rfl := hinput rfl
    exact .input hc hw
  | output =>
    obtain rfl := houtput rfl
    simp only [Op.run] at h
    refine .of_take h fun a data hd h => ?_
    split at h
    · cases h
      exact .invalidCharacter hd
    · obtain ⟨error, sink, rfl, rfl⟩ := Store.write_error h
      exact .output hc hd
  | debug =>
    rw [Op.run_debug] at h
    obtain ⟨error, sink, rfl, rfl⟩ := Store.write_error h
    obtain rfl := hdebug rfl
    exact .debug hc

theorem Frame.op_of_effect_fails {frame : Frame} {store after : Store} {c : Char} {error : RunError}
    (h : frame.effect c store = .fails error after) :
    ∃ op fault, Command.decode c = .op op ∧ op.run frame store = (.error fault, after) ∧
      error = fault.raise c frame.site := by
  unfold Frame.effect at h
  split at h
  · split at h <;> cases h
  · split at h
    next op hd =>
      split at h
      next fault left hr =>
        cases h
        exact ⟨op, fault, hd, hr, rfl⟩
      next => cases h
    next => cases h
    next => cases h
    next => cases h

-- ---------------------------------------------------------------------------
-- Steps
-- ---------------------------------------------------------------------------

namespace Machine

section
variable {reg : Registry} {machine after : Machine} {error : RunError}

theorem Move.residue (h : Move reg machine (.failed error) after) :
    ∃ frame, machine.frames = frame :: after.frames ∧
      after.steps = machine.steps + error.commands ∧
      Residue frame machine.store error after.store := by
  cases h with
  | strays => exact ⟨_, rfl, rfl, .outOfBounds⟩
  | fails hc he =>
    obtain ⟨op, fault, hd, hr, rfl⟩ := Frame.op_of_effect_fails he
    refine ⟨_, rfl, ?_, Op.residue_run hc hd hr⟩
    cases fault <;> rfl
  | misses => exact ⟨_, rfl, rfl, .commandNotFound⟩
  | starves hc he hv => exact ⟨_, rfl, rfl, .velocityUnderflow hv⟩

/-- A step that fails takes its own frame off the stack and leaves the callers as they are. It has
carried out one command, unless its pointer was off the grid. `Residue` says what it has taken from
the top of the data stack and what has become of the velocity stack. Input and output are untouched
unless they are what failed. A step without a frame does nothing. -/
theorem failed_step_leaves (reg : Registry) (machine : Machine) :
    (∀ error after, step reg machine = (.failed error, after) →
      ∃ frame, machine.frames = frame :: after.frames ∧
        after.steps = machine.steps + error.commands ∧
        Residue frame machine.store error after.store ∧
        after.store.data <:+ machine.store.data ∧
        ((∀ cause, error ≠ .stream cause) →
          after.store.input = machine.store.input ∧ after.store.sink = machine.store.sink)) ∧
    (machine.frames = [] → step reg machine = (.finished, machine)) := by
  constructor
  · intro error after h
    obtain ⟨frame, hframes, hsteps, hleft⟩ := (move_of_step h).residue
    exact ⟨frame, hframes, hsteps, hleft, hleft.data_suffix, hleft.streams_eq⟩
  · intro hf
    simp only [step, hf]

end

def divider : Registry := .ofList
  [⟨"", 1, 0, [['f'], ['@']], ⟨"t", 1⟩⟩, ⟨"f", 1, 0, [['0'], [','], ['@']], ⟨"t", 7⟩⟩]

def dividing : Machine :=
  let main := entered (start [6, 7] [] [] .unlimited (.start .warn)) .main
    ⟨"", 1, 0, [['f'], ['@']], ⟨"t", 1⟩⟩
  (step divider (step divider main).2).2

theorem failed_step_leaves_dividing :
    (∃ after, step divider dividing = (.failed (.divisionByZero (.codebox "f")), after) ∧
      after.depth = 1 ∧ after.steps = 3 ∧
      after.store.data = [7] ∧ after.store.velocity = dividing.store.velocity) ∧
    step divider { dividing with frames := [] } = (.finished, { dividing with frames := [] }) := by
  obtain ⟨hfails, -⟩ := failed_step_leaves divider dividing
  obtain ⟨-, hidle⟩ := failed_step_leaves divider { dividing with frames := [] }
  refine ⟨?_, hidle rfl⟩
  have hfailed : (step divider dividing).1 = .failed (.divisionByZero (.codebox "f")) := by decide
  rcases hs : step divider dividing with ⟨outcome, store, frames, steps, journal⟩
  rw [hs] at hfailed
  cases hfailed
  obtain ⟨frame, hframes, hsteps, hleft, -⟩ := hfails _ _ hs
  refine ⟨_, rfl, Nat.succ.inj (congrArg List.length hframes).symm, hsteps, ?_⟩
  cases hleft with
  | divisionByZero taken =>
    have hdata : dividing.store.data = [0, 6, 7] := rfl
    cases hdata.symm.trans taken
    exact ⟨rfl, rfl⟩

end Machine

end Gridwalk
