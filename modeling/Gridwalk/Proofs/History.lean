import Mathlib.Data.List.Forall2
import Gridwalk.Proofs.StepLaws
import Gridwalk.Run.Program

/-!
# Calls do not depend on history

Whatever a machine has been through, a call makes of its stacks, input and output what it would make
of them on a machine that has not run: the frames that a failed call or single steps have left are
dropped, and the commands counted so far only add to the count. So it makes no difference whether
calls are made on one machine or each on a machine of its own that is given what the call before it
left (`call_forgets_history`).

`Alike` relates two machines that differ in what they have counted and noted; steps and calls keep
it.
-/

namespace Gridwalk

namespace Machine

/-- The machines have the same store and frames, and `machine` has carried out `earlier` commands
more than `other`. Their journals need not agree. -/
structure Alike (earlier : Nat) (machine other : Machine) : Prop where
  store : machine.store = other.store
  frames : machine.frames = other.frames
  steps : machine.steps = earlier + other.steps

def SameAnswer (earlier : Nat) (answer other : Except RunError Unit × Machine) : Prop :=
  answer.1 = other.1 ∧ Alike earlier answer.2 other.2

section
variable {reg : Registry} {earlier fuel : Nat} {machine other after : Machine} {outcome : Outcome}
  {key : Key}

theorem Alike.exists_eq (h : Alike earlier machine other) :
    ∃ journal, machine = ⟨other.store, other.frames, earlier + other.steps, journal⟩ := by
  obtain ⟨store, frames, steps, journal⟩ := machine
  obtain ⟨rfl, rfl, rfl⟩ := h
  exact ⟨journal, rfl⟩

theorem Move.alike (h : Move reg other outcome after) (ha : Alike earlier machine other) :
    ∃ next, Move reg machine outcome next ∧ Alike earlier next after := by
  obtain ⟨journal, rfl⟩ := ha.exists_eq
  cases h with
  | idle => exact ⟨⟨_, _, _, journal⟩, .idle, rfl, rfl, rfl⟩
  | strays hc => exact ⟨⟨_, _, _, journal⟩, .strays hc, rfl, rfl, rfl⟩
  | moves hc he => exact ⟨⟨_, _, _, journal⟩, .moves hc he, rfl, rfl, rfl⟩
  | fails hc he => exact ⟨⟨_, _, _, journal⟩, .fails hc he, rfl, rfl, rfl⟩
  | calls hc he hb => exact ⟨⟨_, _, _, journal⟩, .calls hc he hb, rfl, rfl, rfl⟩
  | misses hc he hb => exact ⟨⟨_, _, _, journal⟩, .misses hc he hb, rfl, rfl, rfl⟩
  | ends hc he => exact ⟨⟨_, _, _, journal⟩, .ends hc he, rfl, rfl, rfl⟩
  | resumes hc he hv => exact ⟨⟨_, _, _, journal⟩, .resumes hc he hv, rfl, rfl, rfl⟩
  | starves hc he hv => exact ⟨⟨_, _, _, journal⟩, .starves hc he hv, rfl, rfl, rfl⟩

theorem step_alike (reg : Registry) (h : Alike earlier machine other) :
    (step reg machine).1 = (step reg other).1 ∧
      Alike earlier (step reg machine).2 (step reg other).2 := by
  obtain ⟨next, hm, ha⟩ := (move_step reg other).alike h
  obtain ⟨journal, hs⟩ := hm.step_eq
  rw [hs]
  exact ⟨rfl, ha.store, ha.frames, ha.steps⟩

theorem conclude_alike (result : Except RunError Unit) (h : Alike earlier machine other) :
    SameAnswer earlier (conclude key result machine) (conclude key result other) := by
  obtain ⟨journal, rfl⟩ := h.exists_eq
  cases result with
  | error error => exact ⟨rfl, rfl, rfl, rfl⟩
  | ok => exact ⟨rfl, rfl, rfl, rfl⟩

theorem run_alike (hstore : machine.store = other.store)
    (hsteps : machine.steps = earlier + other.steps) :
    Option.Rel (SameAnswer earlier) (run reg fuel key machine) (run reg fuel key other) := by
  cases hb : reg.get? key with
  | none =>
    rw [run_of_none hb, run_of_none hb]
    exact .some (conclude_alike _ ⟨hstore, rfl, hsteps⟩)
  | some codebox =>
    have hentered : Alike earlier (machine.entered key codebox) (other.entered key codebox) :=
      ⟨hstore, rfl, hsteps⟩
    have hdriven := drive_lockstep (fun _ _ => step_alike reg) hentered fuel
    rw [run_of_some hb, run_of_some hb]
    generalize drive reg fuel (machine.entered key codebox) = driven at hdriven ⊢
    generalize drive reg fuel (other.entered key codebox) = driven' at hdriven ⊢
    cases hdriven with
    | none => exact .none
    | @some answer answer' hr =>
      obtain ⟨result, last⟩ := answer
      obtain ⟨result', last'⟩ := answer'
      obtain ⟨rfl, ha⟩ : result = result' ∧ Alike earlier last last' := hr
      exact .some (conclude_alike result ha)

end

-- ---------------------------------------------------------------------------
-- Calls in turn
-- ---------------------------------------------------------------------------

/-- Calls in turn on one machine, up to one that does not end with this fuel. -/
def runEach (reg : Registry) (fuel : Nat) :
    List Key → Machine → List (Except RunError Unit × Machine)
  | [], _ => []
  | key :: keys, machine =>
    match run reg fuel key machine with
    | none => []
    | some (result, last) => (result, last) :: runEach reg fuel keys last

end Machine

/-- Calls in turn, each on the stacks, the input and the sink that the one before it has handed
back. -/
def Program.runEachOn (reg : Registry) (fuel : Nat) :
    List Key → List Int64 → List Int64 → Stream.Script → Stream.Sink → Log.Journal →
      List (Except RunError Unit × Machine)
  | [], _, _, _, _, _ => []
  | key :: keys, data, velocity, input, sink, journal =>
    match Program.runOn reg fuel key data velocity input sink journal with
    | none => []
    | some (result, last) =>
      (result, last) :: Program.runEachOn reg fuel keys last.store.data last.store.velocity
        last.store.input last.store.sink last.journal

namespace Machine

theorem runEach_alike {reg : Registry} {fuel : Nat} {machine : Machine} {data velocity : List Int64}
    {input : Stream.Script} {sink : Stream.Sink} {journal : Log.Journal} (keys : List Key)
    (h : machine.store = ⟨data, velocity, input, sink⟩) :
    List.Forall₂ (fun answer other => ∃ earlier, SameAnswer earlier answer other)
      (runEach reg fuel keys machine)
      (Program.runEachOn reg fuel keys data velocity input sink journal) := by
  induction keys generalizing machine data velocity input sink journal with
  | nil => exact .nil
  | cons key keys ih =>
    have hfirst : Option.Rel (SameAnswer machine.steps) (run reg fuel key machine)
        (Program.runOn reg fuel key data velocity input sink journal) := run_alike h rfl
    simp only [runEach, Program.runEachOn]
    generalize run reg fuel key machine = first at hfirst ⊢
    generalize Program.runOn reg fuel key data velocity input sink journal = first' at hfirst ⊢
    cases hfirst with
    | none => exact .nil
    | some same => exact .cons ⟨_, same⟩ (ih same.2.store)

/-- A call on any machine, whatever it has been through, ends like the call on a machine that has
not run and has the same stacks, input and sink: with the same result, store and frames, after as
many commands. So calls in turn on one machine have, call by call, the results and stores of calls
that each get the stacks, the input and the sink from the one before, also after calls that fail. -/
theorem call_forgets_history (reg : Registry) (fuel : Nat) (machine : Machine)
    (journal : Log.Journal) :
    (∀ key, Option.Rel (SameAnswer machine.steps) (run reg fuel key machine)
      (run reg fuel key (start machine.store.data machine.store.velocity machine.store.input
        machine.store.sink journal))) ∧
    ∀ keys, List.Forall₂ (fun answer other => ∃ earlier, SameAnswer earlier answer other)
      (runEach reg fuel keys machine)
      (Program.runEachOn reg fuel keys machine.store.data machine.store.velocity
        machine.store.input machine.store.sink journal) :=
  ⟨fun _ => run_alike rfl rfl, fun keys => runEach_alike keys rfl⟩

end Machine

end Gridwalk
