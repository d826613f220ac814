import Gridwalk.Run.Machine

/-!
# What a step does

`Frame.effect` says what the character under a pointer asks for: to go on with some frame and some
store, to fail, to call or to return. `Move` lists every way in which a step can go, in these terms
and whatever is written in the journal; every step is one of them (`move_step`), and a move is what
the step does (`Move.step_eq`). What holds along runs is proved by cases on moves.

`Runs` counts steps after which the run goes on. What steps keep, of one machine or between two,
driven runs keep (`drive_invariant`, `drive_lockstep`). `commands` lists what a run carries out.
-/

namespace Gridwalk

theorem rel_map {α β γ δ : Type} {P : α → β → Prop} {Q : γ → δ → Prop} {f : α → γ} {g : β → δ}
    {x : Option α} {y : Option β} (h : Option.Rel P x y)
    (hf : ∀ a b, x = some a → P a b → Q (f a) (g b)) : Option.Rel Q (x.map f) (y.map g) := by
  cases h with
  | none => exact .none
  | some hab => exact .some (hf _ _ rfl hab)

-- ---------------------------------------------------------------------------
-- Effects
-- ---------------------------------------------------------------------------

inductive Effect
  | moves (frame : Frame) (store : Store)
  | fails (error : RunError) (store : Store)
  | calls (c : Char)
  | returns

def Frame.effect (frame : Frame) (c : Char) (store : Store) : Effect :=
  if frame.inString then
    if c = '"' then .moves { frame with inString := false }.advance store
    else .moves frame.advance (store.push (Word.ofChar c))
  else
    match Command.decode c with
    | .op op =>
      match op.run frame store with
      | (.error fault, store) => .fails (fault.raise c frame.site) store
      | (.ok (), store) => .moves frame.advance store
    | .quote => .moves { frame with inString := true }.advance store
    | .ret => .returns
    | .call d => .calls d

/-- The store with the velocity of `frame` on top of the velocity stack, `vy` above `vx`. -/
def Store.save (store : Store) (frame : Frame) : Store :=
  { store with velocity := frame.vy :: frame.vx :: store.velocity }

section
variable {frame next : Frame} {c d : Char} {store after : Store}

theorem Frame.effect_eq_calls_iff :
    frame.effect c store = .calls d ↔
      frame.inString = false ∧ Command.isReserved c = false ∧ d = c := by
  constructor
  · intro h
    unfold Frame.effect at h
    split at h
    next => split at h <;> nomatch h
    next hs =>
      split at h
      next => split at h <;> nomatch h
      next => nomatch h
      next => nomatch h
      next e hd =>
        obtain rfl := Effect.calls.inj h
        exact ⟨by simpa using hs, by simp [Command.isReserved, hd],
          Command.eq_of_decode_eq_call hd⟩
  · rintro ⟨hs, hr, rfl⟩
    unfold Command.isReserved at hr
    split at hr
    next e hd => simp [Frame.effect, hs, hd, Command.eq_of_decode_eq_call hd]
    next => nomatch hr

theorem Frame.effect_at_return (h : frame.inString = false) :
    frame.effect '@' store = .returns := by
  simp [Frame.effect, h, Command.decode]

theorem Command.eq_of_decode_eq_ret (h : Command.decode c = .ret) : c = '@' := by
  unfold Command.decode at h
  split at h <;> simp_all

theorem Frame.at_return_of_effect (h : frame.effect c store = .returns) :
    frame.inString = false ∧ c = '@' := by
  unfold Frame.effect at h
  split at h
  next => split at h <;> nomatch h
  next hs =>
    split at h
    next => split at h <;> nomatch h
    next => nomatch h
    next hd => exact ⟨by simpa using hs, Command.eq_of_decode_eq_ret hd⟩
    next => nomatch h

theorem Frame.same_codebox_of_effect (h : frame.effect c store = .moves next after) :
    next.codebox = frame.codebox ∧ next.key = frame.key := by
  unfold Frame.effect at h
  split at h
  next =>
    split at h
    all_goals
      obtain ⟨rfl, -⟩ := Effect.moves.inj h
      exact ⟨rfl, rfl⟩
  next =>
    split at h
    next =>
      split at h
      next => nomatch h
      next =>
        obtain ⟨rfl, -⟩ := Effect.moves.inj h
        exact ⟨rfl, rfl⟩
    next =>
      obtain ⟨rfl, -⟩ := Effect.moves.inj h
      exact ⟨rfl, rfl⟩
    next => nomatch h
    next => nomatch h

end

namespace Machine

-- ---------------------------------------------------------------------------
-- Moves
-- ---------------------------------------------------------------------------

section
variable (reg : Registry)

/-- `Move reg machine outcome after`: a step of `machine` can have this outcome and lead to
`after`. -/
inductive Move : Machine → Outcome → Machine → Prop
  | idle {store steps journal journal'} :
    Move ⟨store, [], steps, journal⟩ .finished ⟨store, [], steps, journal'⟩
  | strays {frame callers store steps journal journal'} (hc : frame.current? = none) :
    Move ⟨store, frame :: callers, steps, journal⟩ (.failed (.outOfBounds frame.site))
      ⟨store, callers, steps, journal'⟩
  | moves {frame next callers store after c steps journal journal'}
    (hc : frame.current? = some c) (he : frame.effect c store = .moves next after) :
    Move ⟨store, frame :: callers, steps, journal⟩ .running
      ⟨after, next :: callers, steps + 1, journal'⟩
  | fails {frame callers store after c error steps journal journal'}
    (hc : frame.current? = some c) (he : frame.effect c store = .fails error after) :
    Move ⟨store, frame :: callers, steps, journal⟩ (.failed error)
      ⟨after, callers, steps + 1, journal'⟩
  | calls {frame callers store c d box steps journal journal'}
    (hc : frame.current? = some c) (he : frame.effect c store = .calls d)
    (hb : reg.get? (.command d) = some box) :
    Move ⟨store, frame :: callers, steps, journal⟩ .running
      ⟨store.save frame, .enter box (.command d) :: frame :: callers, steps + 1, journal'⟩
  | misses {frame callers store c d steps journal journal'}
    (hc : frame.current? = some c) (he : frame.effect c store = .calls d)
    (hb : reg.get? (.command d) = none) :
    Move ⟨store, frame :: callers, steps, journal⟩ (.failed (.commandNotFound d))
      ⟨store.save frame, callers, steps + 1, journal'⟩
  | ends {frame store c steps journal journal'}
    (hc : frame.current? = some c) (he : frame.effect c store = .returns) :
    Move ⟨store, [frame], steps, journal⟩ .finished ⟨store, [], steps + 1, journal'⟩
  | resumes {frame caller callers store c vx vy velocity steps journal journal'}
    (hc : frame.current? = some c) (he : frame.effect c store = .returns)
    (hv : store.velocity = vy :: vx :: velocity) :
    Move ⟨store, frame :: caller :: callers, steps, journal⟩ .running
      ⟨{ store with velocity }, (caller.turn vx vy).advance :: callers, steps + 1, journal'⟩
  | starves {frame caller callers store c steps journal journal'}
    (hc : frame.current? = some c) (he : frame.effect c store = .returns)
    (hv : store.velocity.length < 2) :
    Move ⟨store, frame :: caller :: callers, steps, journal⟩
      (.failed (.velocityUnderflow (caller.current?.getD '\uFFFD') caller.site))
      ⟨{ store with velocity := [] }, caller :: callers, steps + 1, journal'⟩

end

def counted (machine : Machine) (frame : Frame) (c : Char) : Machine :=
  { machine with steps := machine.steps + 1 }.note .trace fun _ =>
    s!"{frame.key.text} ({frame.x.toInt}, {frame.y.toInt}) {Text.quoted c}"

theorem execute_eq (reg : Registry) (machine : Machine) (frame : Frame) (c : Char) :
    execute reg machine frame c =
      match frame.effect c machine.store with
      | .moves next store =>
        (.running, { machine.counted frame c with store, frames := next :: machine.frames })
      | .fails error store => (.failed error, { machine.counted frame c with store })
      | .calls d => call reg (machine.counted frame c) frame d
      | .returns => (machine.counted frame c).ret frame := by
  cases hs : frame.inString with
  | true =>
    by_cases hq : c = '"'
    · simp only [execute, readString, Frame.effect, hs, hq, ↓reduceIte]
      rfl
    · simp only [execute, readString, Frame.effect, hs, hq, ↓reduceIte]
      rfl
  | false =>
    cases hd : Command.decode c with
    | op op =>
      match hr : op.run frame machine.store with
      | (.error fault, store) =>
        simp only [execute, operate, note, Frame.effect, hs, hd, hr, Bool.false_eq_true, ↓reduceIte]
        rfl
      | (.ok (), store) =>
        simp only [execute, operate, note, Frame.effect, hs, hd, hr, Bool.false_eq_true, ↓reduceIte]
        rfl
    | quote | ret | call =>
      simp only [execute, Frame.effect, hs, hd, Bool.false_eq_true, ↓reduceIte]
      rfl

section
variable {reg : Registry} {machine after : Machine} {outcome : Outcome}

theorem Move.journal (h : Move reg machine outcome after) (journal : Log.Journal) :
    Move reg machine outcome { after with journal } := by
  cases h with
  | idle => exact .idle
  | strays hc => exact .strays hc
  | moves hc he => exact .moves hc he
  | fails hc he => exact .fails hc he
  | calls hc he hb => exact .calls hc he hb
  | misses hc he hb => exact .misses hc he hb
  | ends hc he => exact .ends hc he
  | resumes hc he hv => exact .resumes hc he hv
  | starves hc he hv => exact .starves hc he hv

theorem Move.step_eq (h : Move reg machine outcome after) :
    ∃ journal, step reg machine = (outcome, { after with journal }) := by
  cases h with
  | idle => exact ⟨_, rfl⟩
  | strays hc => exact ⟨_, by simp only [step, hc]; rfl⟩
  | moves hc he => exact ⟨_, by simp only [step, hc, execute_eq, he]; rfl⟩
  | fails hc he => exact ⟨_, by simp only [step, hc, execute_eq, he]; rfl⟩
  | calls hc he hb => exact ⟨_, by simp only [step, hc, execute_eq, he, call, hb]; rfl⟩
  | misses hc he hb => exact ⟨_, by simp only [step, hc, execute_eq, he, call, hb]; rfl⟩
  | ends hc he => exact ⟨_, by simp only [step, hc, execute_eq, he, ret]; rfl⟩
  | resumes hc he hv =>
    exact ⟨_, by simp only [step, hc, execute_eq, he, ret, counted, note, hv]; rfl⟩
  | @starves _ _ _ store _ _ _ _ hc he hv =>
    match hv' : store.velocity with
    | [] | [_] => exact ⟨_, by simp only [step, hc, execute_eq, he, ret, counted, note, hv']; rfl⟩
    | _ :: _ :: _ =>
      rw [hv', List.length_cons, List.length_cons] at hv
      omega

theorem step_of_moves (reg : Registry) {frame next : Frame} {callers : List Frame} {left : Store}
    {c : Char} (hf : machine.frames = frame :: callers) (hc : frame.current? = some c)
    (he : frame.effect c machine.store = .moves next left) :
    ∃ journal, step reg machine =
      (.running, ⟨left, next :: callers, machine.steps + 1, journal⟩) := by
  obtain ⟨store, frames, steps, journal⟩ := machine
  obtain rfl := hf
  exact (Move.moves hc he : Move reg _ _ ⟨_, _, _, journal⟩).step_eq

theorem step_of_fails (reg : Registry) {frame : Frame} {callers : List Frame} {left : Store}
    {c : Char} {error : RunError} (hf : machine.frames = frame :: callers)
    (hc : frame.current? = some c)
    (he : frame.effect c machine.store = .fails error left) :
    ∃ journal, step reg machine =
      (.failed error, ⟨left, callers, machine.steps + 1, journal⟩) := by
  obtain ⟨store, frames, steps, journal⟩ := machine
  obtain rfl := hf
  exact (Move.fails hc he : Move reg _ _ ⟨_, _, _, journal⟩).step_eq

theorem exists_move (reg : Registry) (machine : Machine) :
    ∃ outcome after, Move reg machine outcome after := by
  obtain ⟨store, frames, steps, journal⟩ := machine
  cases frames with
  | nil => exact ⟨_, ⟨_, _, _, journal⟩, .idle⟩
  | cons frame callers =>
    cases hc : frame.current? with
    | none => exact ⟨_, ⟨_, _, _, journal⟩, .strays hc⟩
    | some c =>
      cases he : frame.effect c store with
      | moves next after => exact ⟨_, ⟨_, _, _, journal⟩, .moves hc he⟩
      | fails error after => exact ⟨_, ⟨_, _, _, journal⟩, .fails hc he⟩
      | calls d =>
        cases hb : reg.get? (.command d) with
        | none => exact ⟨_, ⟨_, _, _, journal⟩, .misses hc he hb⟩
        | some box => exact ⟨_, ⟨_, _, _, journal⟩, .calls hc he hb⟩
      | returns =>
        cases callers with
        | nil => exact ⟨_, ⟨_, _, _, journal⟩, .ends hc he⟩
        | cons caller callers =>
          match hv : store.velocity with
          | vy :: vx :: velocity => exact ⟨_, ⟨_, _, _, journal⟩, .resumes hc he hv⟩
          | [] | [_] => exact ⟨_, ⟨_, _, _, journal⟩, .starves hc he (by simp [hv])⟩

theorem move_step (reg : Registry) (machine : Machine) :
    Move reg machine (step reg machine).1 (step reg machine).2 := by
  obtain ⟨outcome, after, hm⟩ := exists_move reg machine
  obtain ⟨journal, hs⟩ := hm.step_eq
  rw [hs]
  exact hm.journal journal

theorem move_of_step (h : step reg machine = (outcome, after)) :
    Move reg machine outcome after := by
  have hm := move_step reg machine
  rwa [h] at hm

end

-- ---------------------------------------------------------------------------
-- Runs
-- ---------------------------------------------------------------------------

/-- `Runs reg n machine after`: `n` steps lead from `machine` to `after`, and none ends the run. -/
inductive Runs (reg : Registry) : Nat → Machine → Machine → Prop
  | zero {machine} : Runs reg 0 machine machine
  | succ {n machine middle after} (head : step reg machine = (.running, middle))
    (tail : Runs reg n middle after) : Runs reg (n + 1) machine after

def entered (machine : Machine) (key : Key) (codebox : Codebox) : Machine :=
  { machine with frames := [Frame.enter codebox key] }.note .debug fun _ =>
    s!"entering {key.text} ('{codebox.name}')"

section
variable {reg : Registry} {machine middle after : Machine} {n m fuel : Nat}
  {answer : Except RunError Unit × Machine}

theorem Runs.trans (h : Runs reg n machine middle) (h' : Runs reg m middle after) :
    Runs reg (n + m) machine after := by
  induction h with
  | zero => simpa using h'
  | succ head _ ih =>
    rw [Nat.succ_add]
    exact .succ head (ih h')

theorem drive_succ (h : step reg machine = (.running, after)) :
    drive reg (fuel + 1) machine = drive reg fuel after := by
  simp [drive, h]

theorem Runs.drive_eq (h : Runs reg n machine after) (fuel : Nat) :
    drive reg (fuel + n) machine = drive reg fuel after := by
  induction h with
  | zero => rfl
  | succ head _ ih => rw [← Nat.add_assoc, drive_succ head, ih]

theorem Move.drive_of_drive {store : Store} {frames : List Frame} {steps : Nat}
    (h : Move reg machine .running ⟨store, frames, steps, machine.journal⟩)
    (hd : drive reg (fuel + 1) machine = some answer) :
    ∃ journal, drive reg fuel ⟨store, frames, steps, journal⟩ = some answer := by
  obtain ⟨journal, hs⟩ := h.step_eq
  exact ⟨journal, drive_succ hs ▸ hd⟩

theorem Runs.drive_of_drive (h : Runs reg n machine after)
    (hd : drive reg fuel machine = some answer) : drive reg fuel after = some answer := by
  have hmore := drive_add hd n
  rwa [h.drive_eq] at hmore

theorem drive_unique {other : Except RunError Unit × Machine} {more : Nat}
    (h : drive reg fuel machine = some answer) (h' : drive reg more machine = some other) :
    answer = other := by
  have hl := drive_add h more
  rw [Nat.add_comm, drive_add h' fuel] at hl
  exact (Option.some.inj hl).symm

theorem run_of_none {key : Key} (h : reg.get? key = none) :
    run reg fuel key machine =
      some (conclude key (.error (missing key)) { machine with frames := [] }) := by
  rw [run, h]

theorem run_of_some {key : Key} {codebox : Codebox} (h : reg.get? key = some codebox) :
    run reg fuel key machine =
      (drive reg fuel (machine.entered key codebox)).map fun (result, last) =>
        conclude key result last := by
  rw [run, h]
  rfl

theorem run_cases {key : Key} (h : run reg fuel key machine = some answer) :
    (reg.get? key = none ∧
      answer = conclude key (.error (missing key)) { machine with frames := [] }) ∨
    ∃ codebox result last, reg.get? key = some codebox ∧
      drive reg fuel (machine.entered key codebox) = some (result, last) ∧
      answer = conclude key result last := by
  cases hb : reg.get? key with
  | none =>
    rw [run_of_none hb] at h
    exact .inl ⟨rfl, (Option.some.inj h).symm⟩
  | some codebox =>
    rw [run_of_some hb, Option.map_eq_some_iff] at h
    obtain ⟨⟨result, last⟩, hd, rfl⟩ := h
    exact .inr ⟨codebox, result, last, rfl, hd, rfl⟩

theorem conclude_fst (key : Key) (result : Except RunError Unit) (machine : Machine) :
    (conclude key result machine).1 =
      result.bind fun _ => machine.store.sink.flush.1.mapError .stream := by
  cases result <;> rfl

theorem conclude_store (key : Key) (result : Except RunError Unit) (machine : Machine) :
    (conclude key result machine).2.store =
      { machine.store with sink := machine.store.sink.flush.2 } := by
  cases result <;> rfl

@[simp] theorem frames_conclude (key : Key) (result : Except RunError Unit) (machine : Machine) :
    (conclude key result machine).2.frames = machine.frames := by
  cases result <;> rfl

/-- What every step keeps, a driven run keeps. -/
theorem drive_invariant {P : Machine → Prop} (hstep : ∀ machine, P machine → P (step reg machine).2)
    (h : P machine) (hd : drive reg fuel machine = some answer) : P answer.2 := by
  induction fuel generalizing machine with
  | zero => simp [drive] at hd
  | succ fuel ih =>
    have hnext := hstep machine h
    unfold drive at hd
    split at hd
    next hs =>
      rw [hs] at hnext
      exact ih hnext hd
    all_goals
      next hs =>
        obtain rfl := Option.some.inj hd
        rwa [hs] at hnext

/-- Machines whose steps have the same outcome and keep a relation are driven to the same result,
or both need more fuel, and the relation holds at the end. -/
theorem drive_lockstep {reg' : Registry} {other : Machine} {R : Machine → Machine → Prop}
    (hstep : ∀ machine other, R machine other →
      (step reg machine).1 = (step reg' other).1 ∧ R (step reg machine).2 (step reg' other).2)
    (h : R machine other) (fuel : Nat) :
    Option.Rel (fun answer answer' => answer.1 = answer'.1 ∧ R answer.2 answer'.2)
      (drive reg fuel machine) (drive reg' fuel other) := by
  induction fuel generalizing machine other with
  | zero => exact .none
  | succ fuel ih =>
    obtain ⟨houtcome, hnext⟩ := hstep machine other h
    rcases hs : step reg machine with ⟨outcome, next⟩
    rcases hs' : step reg' other with ⟨outcome', next'⟩
    simp only [hs, hs'] at houtcome hnext
    subst houtcome
    simp only [drive, hs, hs']
    cases outcome with
    | running => exact ih hnext
    | finished => exact .some ⟨rfl, hnext⟩
    | failed error => exact .some ⟨rfl, hnext⟩

end

-- ---------------------------------------------------------------------------
-- What a run carries out
-- ---------------------------------------------------------------------------

/-- The command that the next step carries out. A character of a string is none. -/
def command? (machine : Machine) : Option Command :=
  match machine.frames with
  | [] => none
  | frame :: _ => if frame.inString then none else frame.current?.map Command.decode

def commands (reg : Registry) : Nat → Machine → List Command
  | 0, _ => []
  | fuel + 1, machine =>
    machine.command?.toList ++
      match step reg machine with
      | (.running, next) => commands reg fuel next
      | _ => []

def runCommands (reg : Registry) (fuel : Nat) (key : Key) (machine : Machine) : List Command :=
  match reg.get? key with
  | none => []
  | some codebox => commands reg fuel (machine.entered key codebox)

end Machine

end Gridwalk
