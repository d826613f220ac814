import Gridwalk.Proofs.StepLaws

/-!
# Calls leave their callers alone

From a call on, the machine works on the callee's activation and on what that calls in turn. The
frames below stay as they are until the activation returns, which happens at its own `@` and
nowhere else. The return takes the two top values of the velocity stack, whoever left them there,
as the caller's velocity, and moves the caller on.

`Active` says that an activation stands on the frames `base`. A step keeps this unless it leaves no
more frames than `base` (`Move.active`), and a step that does so is the activation's return
(`Move.returns`). `call_isolated` puts this together for whole calls.
-/

namespace Gridwalk

/-- An activation of `box` under `key` stands directly on `base`, with any frames above it. -/
inductive Active (key : Key) (box : Codebox) (base : List Frame) : List Frame → Prop
  | innermost {callee : Frame} (runs : callee.codebox = box) (called : callee.key = key) :
    Active key box base (callee :: base)
  | above {frame frames} (below : Active key box base frames) :
    Active key box base (frame :: frames)

section
variable {key : Key} {box : Codebox} {base frames : List Frame} {frame next : Frame}

theorem Active.length_lt (h : Active key box base frames) : base.length < frames.length := by
  induction h with
  | innermost => exact Nat.lt_succ_self _
  | above _ ih => exact Nat.lt_succ_of_lt ih

theorem Active.exists_above (h : Active key box base frames) : ∃ above, frames = above ++ base := by
  induction h with
  | @innermost callee => exact ⟨[callee], rfl⟩
  | @above frame _ _ ih =>
    obtain ⟨above, rfl⟩ := ih
    exact ⟨frame :: above, rfl⟩

theorem Active.replace (h : Active key box base (frame :: frames))
    (hb : next.codebox = frame.codebox) (hk : next.key = frame.key) :
    Active key box base (next :: frames) := by
  cases h with
  | innermost runs called => exact .innermost (hb.trans runs) (hk.trans called)
  | above below => exact .above below

theorem Active.tail (h : Active key box base (frame :: frames))
    (deep : base.length < frames.length) : Active key box base frames := by
  cases h with
  | innermost => exact absurd deep (Nat.lt_irrefl _)
  | above below => exact below

theorem Active.eq_of_length_le (h : Active key box base (frame :: frames))
    (shallow : frames.length ≤ base.length) :
    frames = base ∧ frame.codebox = box ∧ frame.key = key := by
  cases h with
  | innermost runs called => exact ⟨rfl, runs, called⟩
  | above below => exact absurd below.length_lt (Nat.not_lt.2 shallow)

end

namespace Machine

-- ---------------------------------------------------------------------------
-- Steps
-- ---------------------------------------------------------------------------

section
variable {reg : Registry} {machine entered after : Machine} {outcome : Outcome} {key : Key}
  {box : Codebox} {base callers : List Frame} {caller : Frame} {c : Char}

theorem Move.active (h : Move reg machine .running after)
    (ha : Active key box base machine.frames) (deep : base.length < after.depth) :
    Active key box base after.frames := by
  cases h with
  | moves _ he =>
    obtain ⟨hb, hk⟩ := Frame.same_codebox_of_effect he
    exact ha.replace hb hk
  | calls => exact .above ha
  | resumes => exact (ha.tail deep).replace rfl rfl

/-- Of the steps that do not fail, only the return of the activation leaves no more frames than
there are below it. -/
theorem Move.returns (h : Move reg machine outcome after) (hf : ∀ error, outcome ≠ .failed error)
    (ha : Active key box (caller :: callers) machine.frames)
    (shallow : after.depth ≤ callers.length + 1) :
    ∃ callee vx vy velocity, machine.frames = callee :: caller :: callers ∧
      callee.codebox = box ∧ callee.key = key ∧
      callee.current? = some '@' ∧ callee.inString = false ∧
      machine.store.velocity = vy :: vx :: velocity ∧
      after.store = { machine.store with velocity } ∧
      after.frames = (caller.turn vx vy).advance :: callers := by
  have hlt := ha.length_lt
  cases h with
  | idle => exact absurd hlt (Nat.not_lt_zero _)
  | strays | fails | misses | starves => exact absurd rfl (hf _)
  | moves | calls =>
    simp only [depth, List.length_cons] at hlt shallow
    omega
  | ends =>
    simp only [List.length_cons, List.length_nil] at hlt
    omega
  | resumes hc he hv =>
    obtain ⟨hbase, hb, hk⟩ := ha.eq_of_length_le shallow
    obtain ⟨rfl, rfl⟩ := List.cons.inj hbase
    obtain ⟨hout, rfl⟩ := Frame.at_return_of_effect he
    exact ⟨_, _, _, _, rfl, hb, hk, hc, hout, hv, rfl, rfl⟩

theorem Move.enters (h : Move reg machine .running entered)
    (hf : machine.frames = caller :: callers) (hout : caller.inString = false)
    (hc : caller.current? = some c) (hr : Command.isReserved c = false) :
    ∃ box, reg.get? (.command c) = some box ∧
      entered.frames = .enter box (.command c) :: machine.frames ∧
      entered.store = machine.store.save caller := by
  have hcalls : ∀ store, caller.effect c store = .calls c :=
    fun _ => Frame.effect_eq_calls_iff.2 ⟨hout, hr, rfl⟩
  cases h with
  | moves hc' he | resumes hc' he =>
    obtain ⟨rfl, -⟩ := List.cons.inj hf
    obtain rfl := Option.some.inj (hc.symm.trans hc')
    exact nomatch (hcalls _).symm.trans he
  | calls hc' he hb =>
    obtain ⟨rfl, -⟩ := List.cons.inj hf
    obtain rfl := Option.some.inj (hc.symm.trans hc')
    obtain rfl := Effect.calls.inj ((hcalls _).symm.trans he)
    exact ⟨_, hb, rfl, rfl⟩

end

-- ---------------------------------------------------------------------------
-- Whole calls
-- ---------------------------------------------------------------------------

/-- `RunsAbove reg d machine after`: steps that do not fail lead from `machine` to `after`, and there
are more than `d` frames all the way. -/
inductive RunsAbove (reg : Registry) (d : Nat) : Machine → Machine → Prop
  | here {machine} (deep : d < machine.depth) : RunsAbove reg d machine machine
  | onward {machine middle after} (deep : d < machine.depth)
    (head : step reg machine = (.running, middle)) (tail : RunsAbove reg d middle after) :
    RunsAbove reg d machine after

section
variable {reg : Registry} {machine entered after : Machine} {d : Nat}

theorem RunsAbove.deep (h : RunsAbove reg d machine after) : d < machine.depth := by
  cases h with
  | here deep => exact deep
  | onward deep => exact deep

theorem RunsAbove.active {key : Key} {box : Codebox} {base : List Frame}
    (h : RunsAbove reg base.length machine after) (ha : Active key box base machine.frames) :
    Active key box base after.frames := by
  induction h with
  | here => exact ha
  | onward _ head tail ih => exact ih ((move_of_step head).active ha tail.deep)

/-- A call on the character `c` of `caller` does not touch the frames that are there before it, as
long as there are more of them. The step that brings the machine back to these frames is the `@` of
the called codebox. It takes the two top values of the velocity stack, which are the caller's new
velocity, moves the caller on by it and changes nothing else of the store. These values are the
caller's own velocity if the velocity stack is as the callee found it. -/
theorem call_isolated {caller : Frame} {callers : List Frame} {c : Char}
    (hf : machine.frames = caller :: callers) (hout : caller.inString = false)
    (hc : caller.current? = some c) (hr : Command.isReserved c = false)
    (hs : step reg machine = (.running, entered))
    (runs : RunsAbove reg machine.depth entered after) :
    (∃ above, after.frames = above ++ machine.frames) ∧
    ∀ outcome returned, step reg after = (outcome, returned) →
      (∀ error, outcome ≠ .failed error) → returned.depth ≤ machine.depth →
      ∃ callee p q velocity,
        after.frames = callee :: machine.frames ∧
        callee.key = .command c ∧ reg.get? (.command c) = some callee.codebox ∧
        callee.current? = some '@' ∧ callee.inString = false ∧
        after.store.velocity = q :: p :: velocity ∧
        returned.store = { after.store with velocity } ∧
        returned.frames =
          { caller with
            x := Word.saturate (caller.x.toInt + p.toInt)
            y := Word.saturate (caller.y.toInt + q.toInt)
            vx := p
            vy := q
            inString := false } :: callers ∧
        (after.store.velocity = entered.store.velocity →
          p = caller.vx ∧ q = caller.vy ∧ velocity = machine.store.velocity) := by
  obtain ⟨box, hb, hframes, hstore⟩ := (move_of_step hs).enters hf hout hc hr
  have hstart : Active (.command c) box machine.frames entered.frames := by
    rw [hframes]
    exact .innermost rfl rfl
  have ha := runs.active hstart
  refine ⟨ha.exists_above, ?_⟩
  intro outcome returned hlast hok hback
  have hdepth : machine.depth = callers.length + 1 := congrArg List.length hf
  rw [hdepth] at hback
  rw [hf] at ha
  obtain ⟨callee, p, q, velocity, hcallee, rfl, hk, hat, hplain, hv, hkept, hback⟩ :=
    (move_of_step hlast).returns hok ha hback
  refine ⟨callee, p, q, velocity, hf ▸ hcallee, hk, hb, hat, hplain, hv, hkept, ?_, ?_⟩
  · rw [hback, ← hout]
    rfl
  · intro hsame
    rw [hv, hstore] at hsame
    obtain ⟨hq, hrest⟩ := List.cons.inj hsame
    obtain ⟨hp, hbelow⟩ := List.cons.inj hrest
    exact ⟨hp, hq, hbelow⟩

end

/-- The codebox `f` calls `g`, which leaves a velocity for `f` that takes it to its return. -/
def relay : Registry := .ofList
  [⟨"", 1, 0, [['f'], ['@']], ⟨"t", 1⟩⟩, ⟨"f", 2, 0, [['g', '@']], ⟨"t", 7⟩⟩,
    ⟨"g", 1, 0, [['}'], ['}'], ['@']], ⟨"t", 12⟩⟩]

def relayed (n : Nat) : Machine :=
  Nat.repeat (fun machine => (step relay machine).2) n <|
    entered (start [1, 0] [] [] .unlimited (.start .warn)) .main
      ⟨"", 1, 0, [['f'], ['@']], ⟨"t", 1⟩⟩

theorem call_isolated_relay :
    (relayed 5).store.velocity = [1, 0, 1, 0] ∧ (relayed 6).store.velocity = [1, 0] ∧
      (relayed 6).frames.map (fun frame => (frame.x, frame.y, frame.vx, frame.vy)) =
        [(0, 1, 0, 1)] := by
  have runs : RunsAbove relay (relayed 0).depth (relayed 1) (relayed 5) :=
    .onward (by decide) rfl <| .onward (by decide) rfl <| .onward (by decide) rfl <|
      .onward (by decide) rfl <| .here (by decide)
  obtain ⟨-, h⟩ := call_isolated (c := 'f') rfl rfl rfl rfl rfl runs
  obtain ⟨callee, p, q, velocity, -, -, -, -, -, hv, hstore, hframes, -⟩ :=
    h .running (relayed 6) rfl (by simp) (by decide)
  have hfive : (relayed 5).store.velocity = [1, 0, 1, 0] := rfl
  obtain ⟨rfl, rfl, rfl⟩ : q = 1 ∧ p = 0 ∧ velocity = [1, 0] := by
    simpa using hv.symm.trans hfive
  refine ⟨hfive, ?_, ?_⟩
  · rw [hstore]
  · rw [hframes]
    rfl

end Machine

end Gridwalk
