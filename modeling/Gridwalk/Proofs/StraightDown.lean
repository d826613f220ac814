import Mathlib.Data.Set.Finite.Basic
import Mathlib.Logic.Relation
import Gridwalk.Proofs.FailedSteps
import Gridwalk.Proofs.LiveCodeboxes
import Gridwalk.Proofs.Recursion

/-!
# Programs that never turn

A pointer enters a codebox moving down, and only the velocity stack turns it. Where no codebox that
a call can come to moves values from or to that stack, every pointer goes down its entry column, and
the velocity stack holds one saved velocity, straight down, for every caller. So no return misses a
velocity. `Machine.Plumb` is the invariant; steps keep it (`Move.plumb`).

Such a call ends if no codebox can call itself through others. A pointer passes only the rows below
it, and calls nest only as deep as the graph of calls (`Plumb.exists_agrees`, `halts_of_acyclic`).
-/

namespace Gridwalk

/-- No codebox that characters lead to from `key` moves values from or to the velocity stack. -/
def TurnFree (reg : Registry) (key : Key) : Prop :=
  ∀ called box, Live reg key called → reg.get? called = some box →
    ∀ row ∈ box.rows, '{' ∉ row ∧ '}' ∉ row

def Addressable (reg : Registry) (key : Key) : Prop :=
  ∀ called box, Live reg key called → reg.get? called = some box → box.height < 0x8000000000000000

inductive Calls (reg : Registry) (caller : Key) : Key → Prop
  | intro {box row c} (found : reg.get? caller = some box) (drawn : row ∈ box.rows) (cell : c ∈ row)
    (free : Command.isReserved c = false) : Calls reg caller (.command c)

def Acyclic (reg : Registry) (key : Key) : Prop :=
  ∀ called, Live reg key called → ¬ Relation.TransGen (Calls reg) called called

-- ---------------------------------------------------------------------------
-- The graph of calls
-- ---------------------------------------------------------------------------

section
variable {reg : Registry} {key : Key}

theorem Live.of_calls {caller callee : Key} (h : Live reg key caller)
    (hc : Calls reg caller callee) : Live reg key callee := by
  obtain ⟨found, drawn, cell, free⟩ := hc
  exact .calls h found drawn cell free

/-- A number that every call lowers keeps codeboxes from leading back to themselves. -/
theorem Acyclic.of_rank (rank : Key → Nat)
    (h : ∀ caller callee, Calls reg caller callee → rank callee < rank caller) :
    Acyclic reg key := by
  intro called _ hcycle
  have hlower : ∀ callee, Relation.TransGen (Calls reg) called callee →
      rank callee < rank called := by
    intro callee hpath
    induction hpath with
    | single hc => exact h _ _ hc
    | tail _ hc ih => exact Nat.lt_trans (h _ _ hc) ih
  exact Nat.lt_irrefl _ (hlower called hcycle)

theorem finite_live (reg : Registry) (key : Key) : Finite { called // Live reg key called } := by
  have hcells : { called | Live reg key called } ⊆
      { called | called ∈ key :: reg.boxes.flatMap fun box => box.rows.flatten.map .command } := by
    intro called h
    cases h with
    | start => exact List.mem_cons_self
    | calls _ found drawn cell _ =>
      refine List.mem_cons_of_mem _ (List.mem_flatMap.2 ⟨_, List.mem_of_find?_eq_some found, ?_⟩)
      exact List.mem_map_of_mem (List.mem_flatten_of_mem drawn cell)
  exact (List.finite_toSet _).subset hcells

/-- What holds of a live key if it holds of all that its codebox calls, holds of every live key. -/
theorem Acyclic.induction (h : Acyclic reg key) {P : Key → Prop}
    (hcallees : ∀ caller, Live reg key caller → (∀ callee, Calls reg caller callee → P callee) →
      P caller) {called : Key} (hlive : Live reg key called) : P called := by
  -- among finitely many keys, a transitive relation without cycles is well-founded
  have hfinite := finite_live reg key
  let below (callee caller : { called // Live reg key called }) : Prop :=
    Relation.TransGen (Calls reg) caller.1 callee.1
  have htrans : IsTrans _ below := ⟨fun _ _ _ hab hbc => hbc.trans hab⟩
  have hirrefl : Std.Irrefl below := ⟨fun a => h a.1 a.2⟩
  have hwf : WellFounded below := Finite.wellFounded_of_trans_of_irrefl below
  suffices hall : ∀ a : { called // Live reg key called }, P a.1 from hall ⟨called, hlive⟩
  intro a
  induction a using hwf.induction with
  | h caller ih =>
    refine hcallees caller.1 caller.2 fun callee hc => ?_
    exact ih ⟨callee, caller.2.of_calls hc⟩ (.single hc)

end

-- ---------------------------------------------------------------------------
-- Commands
-- ---------------------------------------------------------------------------

namespace Store

def Straight (f : Store → Except Fault Unit × Store) : Prop :=
  ∀ store, (f store).1 ≠ .error .velocityUnderflow ∧ (f store).2.velocity = store.velocity

theorem straight_of_ok {f : Store → Store} (hf : ∀ store, (f store).velocity = store.velocity) :
    Straight fun store => (.ok (), f store) :=
  fun store => ⟨by simp, hf store⟩

theorem straight_of_error {fault : Fault} (hf : fault ≠ .velocityUnderflow) :
    Straight fun store => (.error fault, store) :=
  fun store => ⟨by simpa using hf, rfl⟩

theorem straight_pushChecked (result : Option Int64) :
    Straight fun store => store.pushChecked result := by
  intro store
  cases result <;> simp [pushChecked, push]

theorem straight_write (text : String) : Straight fun store => store.write text := by
  intro store
  simp only [write]
  rcases store.sink.writeText text with ⟨_ | _, _⟩ <;> simp

theorem straight_read : Straight read := by
  intro store
  simp only [read]
  rcases store.sink.flush with ⟨_ | _, _⟩
  · simp
  · rcases store.input.readChar with ⟨_ | _, _⟩ <;> simp [push]

theorem straight_take {f : Int64 → Store → Except Fault Unit × Store} (hf : ∀ a, Straight (f a)) :
    Straight fun store => store.take f := by
  intro store
  simp only [take]
  cases store.data with
  | nil => simp
  | cons a data => exact hf a { store with data }

theorem straight_takeTwo {f : Int64 → Int64 → Store → Except Fault Unit × Store}
    (hf : ∀ a b, Straight (f a b)) : Straight fun store => store.takeTwo f :=
  straight_take fun a => straight_take fun b => hf a b

end Store

open Store in
theorem Op.straight_run (frame : Frame) {op : Op} (hfrom : op ≠ .fromVelocity)
    (hto : op ≠ .toVelocity) : Straight fun store => op.run frame store := by
  cases op with
  | nop | push =>
    simp only [Op.run]
    exact straight_of_ok fun _ => rfl
  | add | subtract | multiply => exact straight_takeTwo fun a b => straight_pushChecked _
  | divide =>
    refine straight_takeTwo fun a b => ?_
    by_cases ha : a = 0
    · simp only [ha, ↓reduceIte]
      exact straight_of_error (by simp)
    · simp only [ha, ↓reduceIte]
      exact straight_pushChecked _
  | positive | duplicate | discard =>
    simp only [Op.run]
    exact straight_take fun a => straight_of_ok fun _ => rfl
  | swap => exact straight_takeTwo fun a b => straight_of_ok fun _ => rfl
  | fromVelocity => exact absurd rfl hfrom
  | toVelocity => exact absurd rfl hto
  | input => exact straight_read
  | output =>
    refine straight_take fun a => ?_
    cases Word.toChar? a with
    | none => exact straight_of_error (by simp)
    | some c => exact straight_write c.toString
  | debug =>
    intro store
    simpa only [Op.run_debug] using straight_write (store.dump frame) store

theorem Command.eq_of_decode_velocity {c : Char} {op : Op} (h : Command.decode c = .op op) :
    (op = .fromVelocity → c = '{') ∧ (op = .toVelocity → c = '}') := by
  unfold Command.decode at h
  split at h <;> cases h <;> simp

section
variable {frame next : Frame} {c : Char} {store after : Store} {error : RunError}

theorem Op.run_straight {op : Op} (hd : Command.decode c = .op op) (hc : c ≠ '{' ∧ c ≠ '}') :
    (op.run frame store).1 ≠ .error .velocityUnderflow ∧
      (op.run frame store).2.velocity = store.velocity := by
  obtain ⟨hfrom, hto⟩ := Command.eq_of_decode_velocity hd
  exact Op.straight_run frame (fun h => hc.1 (hfrom h)) (fun h => hc.2 (hto h)) store

theorem Frame.effect_moves_straight (h : frame.effect c store = .moves next after)
    (hc : c ≠ '{' ∧ c ≠ '}') :
    after.velocity = store.velocity ∧ ∃ inString, next = { frame with inString }.advance := by
  unfold Frame.effect at h
  split at h
  next =>
    split at h
    all_goals
      cases h
      exact ⟨rfl, _, rfl⟩
  next =>
    split at h
    next op hd =>
      have hrun : (op.run frame store).2.velocity = store.velocity := (Op.run_straight hd hc).2
      split at h
      next => cases h
      next hr =>
        cases h
        rw [hr] at hrun
        exact ⟨hrun, _, rfl⟩
    next =>
      cases h
      exact ⟨rfl, _, rfl⟩
    next => cases h
    next => cases h

theorem Frame.effect_fails_straight (h : frame.effect c store = .fails error after)
    (hc : c ≠ '{' ∧ c ≠ '}') : ∀ d site, error ≠ .velocityUnderflow d site := by
  obtain ⟨op, fault, hd, hr, rfl⟩ := Frame.op_of_effect_fails h
  have hrun : (op.run frame store).1 ≠ .error .velocityUnderflow := (Op.run_straight hd hc).1
  rw [hr] at hrun
  intro d site
  cases fault with
  | velocityUnderflow => exact absurd rfl hrun
  | _ => simp [Fault.raise]

end

-- ---------------------------------------------------------------------------
-- Steps
-- ---------------------------------------------------------------------------

theorem Codebox.lt_height_of_cell? {box : Codebox} {x y : Int} {c : Char}
    (h : box.cell? x y = some c) : 0 ≤ y ∧ y < box.height := by
  unfold Codebox.cell? at h
  split at h
  next x y =>
    obtain ⟨row, hrow, -⟩ := Option.bind_eq_some_iff.1 h
    obtain ⟨hy, -⟩ := List.getElem?_eq_some_iff.1 hrow
    exact ⟨Int.natCast_nonneg y, Int.ofNat_lt.2 hy⟩
  next => cases h

/-- The frame runs what is registered under a live key, and its pointer goes down the entry
column. -/
structure Frame.Plumb (reg : Registry) (key : Key) (frame : Frame) : Prop where
  live : Live reg key frame.key
  registered : reg.get? frame.key = some frame.codebox
  x : frame.x = Int64.ofNat frame.codebox.entry
  vx : frame.vx = 0
  vy : frame.vy = 1

section
variable {reg : Registry} {key : Key} {frame : Frame} {c : Char}

theorem Frame.Plumb.advance (h : frame.Plumb reg key) (inString : Bool) :
    { frame with inString }.advance.Plumb reg key where
  live := h.live
  registered := h.registered
  x := by simp only [Frame.advance, h.vx, Int64.toInt_zero, Int.add_zero, Word.saturate_toInt, h.x]
  vx := h.vx
  vy := h.vy

theorem Frame.Plumb.toInt_y_advance (h : frame.Plumb reg key) (hsize : Addressable reg key)
    (hc : frame.current? = some c) (inString : Bool) :
    { frame with inString }.advance.y.toInt = frame.y.toInt + 1 := by
  have hy := Codebox.lt_height_of_cell? hc
  have hheight := hsize _ _ h.live h.registered
  simp only [Frame.advance, h.vy, Int64.toInt_one]
  exact Word.toInt_saturate (by omega)

theorem Frame.Plumb.turn_eq (h : frame.Plumb reg key) : frame.turn 0 1 = frame := by
  rw [← h.vx, ← h.vy]
  rfl

theorem Frame.Plumb.enter {called : Key} {box : Codebox} (live : Live reg key called)
    (found : reg.get? called = some box) : (Frame.enter box called).Plumb reg key :=
  ⟨live, found, rfl, rfl, rfl⟩

theorem Frame.Plumb.calls (h : frame.Plumb reg key) (hc : frame.current? = some c)
    (hfree : Command.isReserved c = false) : Calls reg frame.key (.command c) := by
  obtain ⟨row, hrow, hcell⟩ := Codebox.mem_of_cell? hc
  exact ⟨h.registered, hrow, hcell, hfree⟩

theorem Frame.Plumb.straight (h : frame.Plumb reg key) (hfree : TurnFree reg key)
    (hc : frame.current? = some c) : c ≠ '{' ∧ c ≠ '}' := by
  obtain ⟨row, hrow, hcell⟩ := Codebox.mem_of_cell? hc
  obtain ⟨hfrom, hto⟩ := hfree _ _ h.live h.registered row hrow
  exact ⟨fun he => hfrom (he ▸ hcell), fun he => hto (he ▸ hcell)⟩

end

namespace Machine

/-- Every frame goes down its entry column, and above `base` the velocity stack holds the velocity
of every caller. -/
structure Plumb (reg : Registry) (key : Key) (base : List Int64) (machine : Machine) : Prop where
  running : 0 < machine.depth
  frames : ∀ frame ∈ machine.frames, frame.Plumb reg key
  velocity :
    machine.store.velocity = (List.replicate (machine.depth - 1) [1, 0]).flatten ++ base

def Plumb.Outlook (reg : Registry) (key : Key) (base : List Int64) (after : Machine) :
    Outcome → Prop
  | .running => Plumb reg key base after
  | .finished => after.store.velocity = base
  | .failed error => ∀ c site, error ≠ .velocityUnderflow c site

section
variable {reg : Registry} {key : Key} {base : List Int64} {machine after last : Machine}
  {outcome : Outcome} {n fuel : Nat} {result : Except RunError Unit}

section
variable {frame caller : Frame} {callers : List Frame} {store : Store} {steps : Nat}
  {journal : Log.Journal}

theorem Plumb.top (h : Plumb reg key base ⟨store, frame :: callers, steps, journal⟩) :
    frame.Plumb reg key :=
  h.frames frame List.mem_cons_self

theorem Plumb.velocity_eq
    (h : Plumb reg key base ⟨store, frame :: caller :: callers, steps, journal⟩) :
    store.velocity = 1 :: 0 :: ((List.replicate callers.length [1, 0]).flatten ++ base) :=
  h.velocity

end

theorem Move.plumb (h : Move reg machine outcome after) (hfree : TurnFree reg key)
    (hp : Plumb reg key base machine) : Plumb.Outlook reg key base after outcome := by
  cases h with
  | idle => exact absurd hp.running (Nat.lt_irrefl 0)
  | strays | misses => simp [Plumb.Outlook]
  | moves hc he =>
    obtain ⟨hframe, hcallers⟩ := List.forall_mem_cons.1 hp.frames
    obtain ⟨hv, inString, rfl⟩ := Frame.effect_moves_straight he (hframe.straight hfree hc)
    exact ⟨hp.running, List.forall_mem_cons.2 ⟨hframe.advance inString, hcallers⟩,
      hv.trans hp.velocity⟩
  | fails hc he => exact Frame.effect_fails_straight he (hp.top.straight hfree hc)
  | calls hc he hb =>
    obtain ⟨-, hr, rfl⟩ := Frame.effect_eq_calls_iff.1 he
    have hlive := hp.top.live.of_calls (hp.top.calls hc hr)
    refine ⟨Nat.succ_pos _, List.forall_mem_cons.2 ⟨.enter hlive hb, hp.frames⟩, ?_⟩
    simp only [Store.save, hp.top.vx, hp.top.vy]
    exact congrArg (1 :: 0 :: ·) hp.velocity
  | ends => exact hp.velocity
  | resumes hc he hv =>
    obtain ⟨-, hcallers⟩ := List.forall_mem_cons.1 hp.frames
    obtain ⟨hcaller, hrest⟩ := List.forall_mem_cons.1 hcallers
    simp only [hp.velocity_eq, List.cons.injEq] at hv
    obtain ⟨rfl, rfl, rfl⟩ := hv
    rw [hcaller.turn_eq]
    exact ⟨Nat.succ_pos _, List.forall_mem_cons.2 ⟨hcaller.advance _, hrest⟩, rfl⟩
  | starves hc he hv =>
    rw [hp.velocity_eq, List.length_cons, List.length_cons] at hv
    omega

theorem Runs.plumb (h : Runs reg n machine after) (hfree : TurnFree reg key)
    (hp : Plumb reg key base machine) : Plumb reg key base after := by
  induction h with
  | zero => exact hp
  | succ head _ ih => exact ih ((move_of_step head).plumb hfree hp)

theorem plumb_of_drive (hd : drive reg fuel machine = some (result, last))
    (hfree : TurnFree reg key) (hp : Plumb reg key base machine) :
    (∀ c site, result ≠ .error (.velocityUnderflow c site)) ∧
      (result = .ok () → last.store.velocity = base) := by
  induction fuel generalizing machine with
  | zero => cases hd
  | succ fuel ih =>
    rcases hs : step reg machine with ⟨outcome, next⟩
    have hnext := (move_of_step hs).plumb hfree hp
    cases outcome with
    | running =>
      rw [drive_succ hs] at hd
      exact ih hd hnext
    | finished =>
      simp only [drive, hs] at hd
      cases hd
      exact ⟨by simp, fun _ => hnext⟩
    | failed error =>
      simp only [drive, hs] at hd
      cases hd
      exact ⟨fun c site he => hnext c site (Except.error.inj he), by simp⟩

theorem plumb_entered {box : Codebox} (hb : reg.get? key = some box) (machine : Machine) :
    Plumb reg key machine.store.velocity (machine.entered key box) :=
  ⟨Nat.one_pos, List.forall_mem_singleton.2 (.enter .start hb), rfl⟩

theorem plumb_of_run (hfree : TurnFree reg key)
    (h : run reg fuel key machine = some (result, last)) :
    (∀ c site, result ≠ .error (.velocityUnderflow c site)) ∧
      (result = .ok () → last.store.velocity = machine.store.velocity) := by
  obtain ⟨-, h⟩ | ⟨box, own, ending, hb, hd, h⟩ := run_cases h
  · cases h
    refine ⟨fun c site => ?_, by simp⟩
    cases key <;> simp [missing]
  · obtain ⟨hne, hv⟩ := plumb_of_drive hd hfree (plumb_entered hb machine)
    have hresult := conclude_fst key own ending
    have hstore := conclude_store key own ending
    rw [← h] at hresult hstore
    cases own with
    | error error =>
      obtain rfl : result = .error error := hresult
      exact ⟨hne, by simp⟩
    | ok =>
      obtain rfl : result = ending.store.sink.flush.1.mapError .stream := hresult
      refine ⟨fun c site => ?_, fun _ => ?_⟩
      · rcases ending.store.sink.flush with ⟨_ | _, _⟩ <;> simp [Except.mapError]
      · exact (congrArg Store.velocity hstore).trans (hv rfl)

end

-- ---------------------------------------------------------------------------
-- Ends
-- ---------------------------------------------------------------------------

/-- Machines on which the codebox under `called` has just been entered get to its return or to an
error. -/
def Halts (reg : Registry) (key : Key) (base : List Int64) (called : Key) : Prop :=
  ∀ box machine callers, reg.get? called = some box →
    machine.frames = .enter box called :: callers → Plumb reg key base machine →
    ∃ answer, Agrees reg machine callers answer

section
variable {reg : Registry} {key : Key} {base : List Int64} {machine : Machine} {frame : Frame}
  {callers : List Frame} {n : Nat}

theorem Plumb.exists_agrees_of_move {store : Store} {frames : List Frame} {steps : Nat}
    (hp : Plumb reg key base machine) (hfree : TurnFree reg key)
    (h : Move reg machine .running ⟨store, frames, steps, machine.journal⟩)
    (hnext : ∀ journal, Plumb reg key base ⟨store, frames, steps, journal⟩ →
      ∃ answer, Agrees reg ⟨store, frames, steps, journal⟩ callers answer) :
    ∃ answer, Agrees reg machine callers answer := by
  obtain ⟨journal, hs⟩ := h.step_eq
  obtain ⟨answer, ha⟩ := hnext journal ((h.journal journal).plumb hfree hp)
  exact ⟨answer, ha.after_runs (.succ hs .zero)⟩

/-- A frame with `n` rows to go gets to its return or to an error, if what it calls does. -/
theorem Plumb.exists_agrees (hp : Plumb reg key base machine) (hfree : TurnFree reg key)
    (hsize : Addressable reg key) (hf : machine.frames = frame :: callers)
    (hcallees : ∀ callee, Calls reg frame.key callee → Halts reg key base callee)
    (hn : frame.codebox.height ≤ frame.y.toInt + n) :
    ∃ answer, Agrees reg machine callers answer := by
  induction n generalizing machine frame with
  | zero =>
    obtain ⟨store, frames, steps, journal⟩ := machine
    obtain rfl : frames = frame :: callers := hf
    cases hc : frame.current? with
    | none => exact ⟨_, .of_failure (.strays hc)⟩
    | some c =>
      have hy := Codebox.lt_height_of_cell? hc
      omega
  | succ n ih =>
    obtain ⟨store, frames, steps, journal⟩ := machine
    obtain rfl : frames = frame :: callers := hf
    have hframe := hp.top
    cases hc : frame.current? with
    | none => exact ⟨_, .of_failure (.strays hc)⟩
    | some c =>
      -- whatever happens on this row, the frame goes on with one row less
      have hbelow (inString : Bool) :
          (frame.codebox.height : Int) ≤ { frame with inString }.advance.y.toInt + n := by
        rw [hframe.toInt_y_advance hsize hc]
        omega
      cases he : frame.effect c store with
      | fails error after => exact ⟨_, .of_failure (.fails hc he)⟩
      | returns => exact ⟨_, .returns .zero rfl hc he⟩
      | moves next after =>
        obtain ⟨-, inString, rfl⟩ := Frame.effect_moves_straight he (hframe.straight hfree hc)
        refine hp.exists_agrees_of_move hfree (.moves hc he) fun journal hp => ?_
        exact ih hp rfl hcallees (hbelow inString)
      | calls d =>
        obtain ⟨-, hr, rfl⟩ := Frame.effect_eq_calls_iff.1 he
        cases hb : reg.get? (.command d) with
        | none => exact ⟨_, .of_failure (.misses hc he hb)⟩
        | some box =>
          refine hp.exists_agrees_of_move hfree (.calls hc he hb) fun journal hp => ?_
          obtain ⟨answer, ha⟩ := hcallees _ (hframe.calls hc hr) box _ _ hb rfl hp
          cases ha with
          | fails runs hs => exact ⟨_, .fails runs hs⟩
          | @returns _ last callee _ runs hf hc' he' =>
            obtain ⟨store, frames, steps, journal⟩ := last
            obtain rfl := hf
            have hlast := runs.plumb hfree hp
            obtain ⟨answer, ha⟩ : ∃ answer, Agrees reg
                ⟨store, callee :: frame :: callers, steps, journal⟩ callers answer := by
              refine hlast.exists_agrees_of_move hfree (.resumes hc' he' hlast.velocity_eq) ?_
              intro journal hp
              rw [hframe.turn_eq] at hp ⊢
              exact ih hp rfl hcallees (hbelow frame.inString)
            exact ⟨answer, ha.after_runs runs⟩

theorem halts_of_acyclic (hfree : TurnFree reg key) (hsize : Addressable reg key)
    (h : Acyclic reg key) {called : Key} (hlive : Live reg key called) :
    Halts reg key base called := by
  refine h.induction (fun caller _ ih => ?_) hlive
  intro box machine callers hb hf hp
  exact hp.exists_agrees hfree hsize hf ih (Int.le_add_of_nonneg_left (Int.le_refl 0))

theorem exists_run_of_acyclic (hfree : TurnFree reg key) (hsize : Addressable reg key)
    (h : Acyclic reg key) (machine : Machine) :
    ∃ fuel answer, run reg fuel key machine = some answer := by
  cases hb : reg.get? key with
  | none => exact ⟨0, _, run_of_none hb⟩
  | some box =>
    obtain ⟨answer, ha⟩ :=
      halts_of_acyclic hfree hsize h .start box (machine.entered key box) [] hb rfl
        (plumb_entered hb machine)
    obtain ⟨fuel, last, hd, -⟩ := ha.exists_drive
    exact ⟨fuel, conclude key answer.1 last, by rw [run_of_some hb, hd]; rfl⟩

end

/-- Let no codebox that characters lead to from `key` move values from or to the velocity stack.
At every point of a call every pointer is in its entry column and goes straight down, and the
velocity stack is that before the call under one such velocity for each caller, `vy` above `vx`. The
call never misses a velocity, and if it succeeds, the velocity stack is as it was. If besides no
codebox leads back to itself, the call ends, whatever the input. -/
theorem turn_free_goes_down (reg : Registry) (key : Key) (machine : Machine)
    (hfree : TurnFree reg key) :
    (∀ box n middle, reg.get? key = some box → Runs reg n (machine.entered key box) middle →
      0 < middle.depth ∧
      (∀ frame ∈ middle.frames, frame.vx = 0 ∧ frame.vy = 1 ∧
        frame.x = Int64.ofNat frame.codebox.entry) ∧
      middle.store.velocity =
        (List.replicate (middle.depth - 1) [1, 0]).flatten ++ machine.store.velocity) ∧
    (∀ fuel result last, run reg fuel key machine = some (result, last) →
      (∀ c site, result ≠ .error (.velocityUnderflow c site)) ∧
      (result = .ok () → last.store.velocity = machine.store.velocity)) ∧
    (Addressable reg key → Acyclic reg key →
      ∃ fuel answer, run reg fuel key machine = some answer) := by
  refine ⟨?_, ?_, ?_⟩
  · intro box n middle hb runs
    have hp := runs.plumb hfree (plumb_entered hb machine)
    refine ⟨hp.running, fun frame hm => ?_, hp.velocity⟩
    have hframe := hp.frames frame hm
    exact ⟨hframe.vx, hframe.vy, hframe.x⟩
  · intro fuel result last h
    exact plumb_of_run hfree h
  · intro hsize hacyclic
    exact exists_run_of_acyclic hfree hsize hacyclic machine

def descentBoxes : List Codebox :=
  [⟨"", 1, 0, [['f'], ['f'], ['@']], ⟨"t", 1⟩⟩, ⟨"f", 2, 1, [['.', 'g'], ['2', '@']], ⟨"t", 8⟩⟩,
    ⟨"g", 1, 0, [['i'], ['@']], ⟨"t", 14⟩⟩]

def descent : Registry := .ofList descentBoxes

theorem turn_free_goes_down_descent :
    TurnFree descent .main ∧ Addressable descent .main ∧ Acyclic descent .main ∧
    ∃ fuel result last,
      run descent fuel .main (start [] [4, 5] [] .unlimited (.start .warn)) = some (result, last) ∧
      (∀ c site, result ≠ .error (.velocityUnderflow c site)) ∧
      (result = .ok () → last.store.velocity = [4, 5]) := by
  have hmem : ∀ called box, descent.get? called = some box → box ∈ descentBoxes :=
    fun called box found => List.mem_of_find?_eq_some (found : descentBoxes.find? _ = some box)
  have hfree : TurnFree descent .main := by
    intro called box _ found
    have hrows : ∀ box ∈ descentBoxes, ∀ row ∈ box.rows, '{' ∉ row ∧ '}' ∉ row := by decide
    exact hrows box (hmem called box found)
  have hsize : Addressable descent .main := by
    intro called box _ found
    have hrows : ∀ box ∈ descentBoxes, box.height < 0x8000000000000000 := by decide
    exact hrows box (hmem called box found)
  have hacyclic : Acyclic descent .main := by
    let rank (key : Key) : Nat := if key = .main then 2 else if key = .command 'f' then 1 else 0
    refine .of_rank rank ?_
    rintro caller _ ⟨found, drawn, cell, free⟩
    have hlower : descentBoxes.all (fun box => box.rows.all fun row => row.all fun c =>
        Command.isReserved c || rank (.command c) < rank box.key) = true := rfl
    simp only [List.all_eq_true, Bool.or_eq_true, decide_eq_true_eq] at hlower
    rw [← Registry.key_of_get? found]
    exact (hlower _ (hmem _ _ found) _ drawn _ cell).resolve_left (by simp [free])
  obtain ⟨-, hends, hhalts⟩ :=
    turn_free_goes_down descent .main (start [] [4, 5] [] .unlimited (.start .warn)) hfree
  obtain ⟨fuel, ⟨result, last⟩, hrun⟩ := hhalts hsize hacyclic
  exact ⟨hfree, hsize, hacyclic, fuel, result, last, hrun, hends fuel result last hrun⟩

end Machine

end Gridwalk
