import Gridwalk.Proofs.Conversations

/-!
# Output that does not fit

A sink with a limit does to a run what a full disk does: as long as what is written fits, nobody can
tell it from a sink without a limit. The write that does not fit is accepted up to the limit and
fails, and with it the run. So the bytes that a sink with a limit has at the end are the first ones
of those that an unlimited sink would have (`bounded_sink_truncates`).

`Prompt` is why: a conversation ends as soon as a write has failed. The two runs go on in step up to
the write that does not fit, and from there on the unlimited run only adds to the end of its output.
A debug dump is six writes, of which any may be the last. They count as one write of their texts,
since that is cut at the same byte and fails alike (`Sink.write_append`, `Op.run_debug`).
-/

namespace Gridwalk

open Gridwalk.Stream (Talk Request)

-- ---------------------------------------------------------------------------
-- Sinks
-- ---------------------------------------------------------------------------

namespace Stream

def Error.overrun (stalls : Bool) : Error :=
  ⟨.other, if stalls then "failed to write whole buffer" else "sink full"⟩

namespace Sink

def bounded (sink : Sink) (limit : Nat) (stalls : Bool) : Sink :=
  { sink with limit := some limit, stalls }

section
variable {sink : Sink} {limit : Nat} {stalls : Bool} {bytes : List UInt8}

theorem size_written_write (hs : sink.limit = none) :
    (sink.write bytes).2.written.size = sink.written.size + bytes.length := by
  simp [← Array.length_toList, toList_written_write, room, hs]

theorem write_bounded_of_le (hs : sink.limit = none)
    (hfit : (sink.write bytes).2.written.size ≤ limit) :
    (sink.bounded limit stalls).write bytes = (.ok (), (sink.write bytes).2.bounded limit stalls) := by
  rw [size_written_write hs] at hfit
  have hroom : (sink.bounded limit stalls).room bytes.length = bytes.length := by
    simp only [room, bounded]
    omega
  rw [write_of_limit_eq_none hs, write_of_room_eq hroom]
  rfl

theorem write_bounded_of_lt (hs : sink.limit = none) (hroom : sink.written.size ≤ limit)
    (hfull : limit < (sink.write bytes).2.written.size) (stalls : Bool) :
    ∃ last, (sink.bounded limit stalls).write bytes = (.error (.overrun stalls), last) ∧
      last.written.toList = (sink.write bytes).2.written.toList.take limit := by
  rw [size_written_write hs] at hfull
  have hn : (sink.bounded limit stalls).room bytes.length = limit - sink.written.size := by
    simp only [room, bounded]
    omega
  have hshort : (sink.bounded limit stalls).room bytes.length < bytes.length := by omega
  have herror : (sink.bounded limit stalls).full = .overrun stalls := by cases stalls <;> rfl
  refine ⟨_, by rw [write_of_room_lt hshort, herror, hn], ?_⟩
  simp [bounded, write_of_limit_eq_none hs, List.take_append, List.take_of_length_le, hroom]

@[simp] theorem limit_flush : sink.flush.2.limit = sink.limit := by
  unfold flush
  simp only
  split <;> rfl

@[simp] theorem written_flush : sink.flush.2.written = sink.written := by
  unfold flush
  simp only
  split <;> rfl

theorem flush_bounded :
    (sink.bounded limit stalls).flush = (sink.flush.1, sink.flush.2.bounded limit stalls) := by
  by_cases hr : sink.flushes + 1 ∈ sink.refused <;> simp [flush, bounded, hr]

end

end Sink

/-- The sink keeps its limit and what has been written, and has perhaps more. -/
structure Sink.Grows (sink last : Sink) : Prop where
  limit : last.limit = sink.limit
  written : sink.written.toList <+: last.written.toList

section
variable {sink middle last : Sink} {limit : Nat}

theorem Sink.Grows.refl : Grows sink sink := ⟨rfl, List.prefix_rfl⟩

theorem Sink.Grows.trans (h : Grows sink middle) (h' : Grows middle last) : Grows sink last :=
  ⟨h'.limit.trans h.limit, h.written.trans h'.written⟩

theorem Sink.Grows.size_le (h : Grows sink last) : sink.written.size ≤ last.written.size := by
  simpa using h.written.length_le

theorem Sink.Grows.take_eq (h : Grows sink last) (hfull : limit ≤ sink.written.size) :
    last.written.toList.take limit = sink.written.toList.take limit := by
  obtain ⟨rest, hrest⟩ := h.written
  rw [← hrest, List.take_append_of_le_length (by simpa using hfull)]

theorem Sink.grows_flush : Grows sink sink.flush.2 :=
  ⟨limit_flush, by simp⟩

theorem Sink.grows_write (bytes : List UInt8) : Grows sink (sink.write bytes).2 := by
  refine ⟨?_, ?_⟩
  · unfold Sink.write
    simp only
    split <;> rfl
  · rw [toList_written_write]
    exact List.prefix_append ..

theorem Sink.grows_foldl_serve (streams : Script × Sink) (requests : List Request) :
    Grows streams.2 (requests.foldl Request.serve streams).2 := by
  induction requests generalizing streams with
  | nil => exact .refl
  | cons request requests ih =>
    refine Grows.trans ?_ (ih _)
    cases request with
    | flush => exact grows_flush
    | read => exact .refl
    | write text => exact grows_write _

end

-- ---------------------------------------------------------------------------
-- Conversations
-- ---------------------------------------------------------------------------

/-- A conversation that ends with the error of the first write that fails. -/
inductive Talk.Prompt : Talk Ending → Prop
  | done {ending} : Prompt (.done ending)
  | flush {next} (rest : ∀ answer, Prompt (next answer)) : Prompt (.flush next)
  | read {next} (rest : ∀ answer, Prompt (next answer)) : Prompt (.read next)
  | write {text next} (rest : Prompt (next (.ok ())))
    (stops : ∀ error, ∃ data velocity,
      next (.error error) = .done ⟨.error (.stream error), data, velocity⟩) :
    Prompt (.write text next)

namespace Talk

theorem prompt_following (n : Nat) {next : Except Error (List UInt8) → Talk Ending}
    (h : ∀ answer, Prompt (next answer)) : Prompt (following n next) := by
  induction n generalizing next with
  | zero => exact h _
  | succ n ih =>
    refine .read fun answer => ?_
    cases answer with
    | ended | failed => exact h _
    | byte byte =>
      refine ih fun answer => ?_
      cases answer <;> exact h _

theorem prompt_readChar {next : Except Error (Option Char) → Talk Ending}
    (h : ∀ answer, Prompt (next answer)) : Prompt (readChar next) := by
  refine .read fun answer => ?_
  cases answer with
  | ended | failed => exact h _
  | byte lead =>
    simp only
    split
    · exact h _
    · refine prompt_following _ fun answer => ?_
      cases answer with
      | error => exact h _
      | ok bytes =>
        simp only
        split <;> exact h _

theorem grows_hold {α : Type} (talk : Talk α) (streams : Script × Sink) :
    Sink.Grows streams.2 (talk.hold streams).2.2 := by
  rw [hold_snd]
  exact Sink.grows_foldl_serve ..

/-- A conversation with a sink without a limit, held with a sink that has one: it ends the same if
what is written fits. Otherwise it ends with the error of a full sink, which has what fits. -/
theorem Prompt.hold_bounded {talk : Talk Ending} {ending : Ending} {input left : Script}
    {sink last : Sink} {limit : Nat} (h : Prompt talk) (hs : sink.limit = none)
    (hroom : sink.written.size ≤ limit) (hend : talk.hold (input, sink) = (ending, left, last))
    (stalls : Bool) :
    (last.written.size ≤ limit → talk.hold (input, sink.bounded limit stalls) =
      (ending, left, last.bounded limit stalls)) ∧
    (limit < last.written.size → ∃ data velocity left full,
      talk.hold (input, sink.bounded limit stalls) =
        (⟨.error (.stream (.overrun stalls)), data, velocity⟩, left, full) ∧
      full.written.toList = last.written.toList.take limit) := by
  induction h generalizing input sink with
  | done =>
    cases hend
    exact ⟨fun _ => rfl, fun hfull => absurd hroom (Nat.not_le.2 hfull)⟩
  | flush rest ih =>
    simp only [hold, Sink.flush_bounded] at hend ⊢
    exact ih _ (by rwa [Sink.limit_flush]) (by rwa [Sink.written_flush]) hend
  | read rest ih => exact ih _ hs hroom hend
  | @write text next rest stops ih =>
    have hok := Sink.write_of_limit_eq_none hs (Utf8.encodeText text)
    simp only [hold, Sink.writeText] at hend ⊢
    by_cases hfit : (sink.write (Utf8.encodeText text)).2.written.size ≤ limit
    · rw [Sink.write_bounded_of_le hs hfit]
      simp only [hok] at hend hfit ⊢
      exact ih hs hfit hend
    · obtain ⟨full, hwrite, hfull⟩ := Sink.write_bounded_of_lt hs hroom (Nat.not_le.1 hfit)
        stalls
      obtain ⟨data, velocity, hstop⟩ := stops (.overrun stalls)
      -- the unlimited conversation goes on, but what it has written by now stays
      have hgrows : Sink.Grows (sink.write (Utf8.encodeText text)).2 last := by
        have hrest := grows_hold (next (sink.write (Utf8.encodeText text)).1)
          (input, (sink.write (Utf8.encodeText text)).2)
        rwa [hend] at hrest
      refine ⟨fun hsmall => absurd (Nat.le_trans hgrows.size_le hsmall) hfit, fun _ => ?_⟩
      refine ⟨data, velocity, input, full, ?_, ?_⟩
      · rw [hwrite]
        simp only [hstop, hold]
      · rw [hfull, hgrows.take_eq (Nat.le_of_not_le hfit)]

end Talk

end Stream

theorem Op.prompt_tell (text : String) (data velocity : List Int64) :
    (Op.tell text data velocity).Prompt :=
  .write .done fun _ => ⟨data, velocity, rfl⟩

theorem Op.prompt_talk (frame : Frame) (data velocity : List Int64) (op : Op) :
    (op.talk frame data velocity).Prompt := by
  cases op with
  | input =>
    refine .flush fun answer => ?_
    cases answer with
    | error => exact .done
    | ok =>
      refine Talk.prompt_readChar fun answer => ?_
      cases answer <;> exact .done
  | output =>
    cases data with
    | nil => exact .done
    | cons a data =>
      simp only [Op.talk]
      split
      · exact .done
      · exact prompt_tell ..
  | debug => exact prompt_tell ..
  | _ => exact .done

-- ---------------------------------------------------------------------------
-- Steps
-- ---------------------------------------------------------------------------

def Store.bounded (store : Store) (limit : Nat) (stalls : Bool) : Store :=
  { store with sink := store.sink.bounded limit stalls }

theorem Op.run_bounded {op : Op} {frame : Frame} {store after : Store}
    {result : Except Fault Unit} {limit : Nat} (h : op.run frame store = (result, after))
    (hs : store.sink.limit = none) (hroom : store.sink.written.size ≤ limit) (stalls : Bool) :
    (after.sink.written.size ≤ limit →
      op.run frame (store.bounded limit stalls) = (result, after.bounded limit stalls)) ∧
    (limit < after.sink.written.size → ∃ full,
      op.run frame (store.bounded limit stalls) = (.error (.stream (.overrun stalls)), full) ∧
      full.sink.written.toList = after.sink.written.toList.take limit) := by
  rw [Op.run_eq_converse] at h ⊢
  rcases hend : (op.talk frame store.data store.velocity).hold store.streams with
    ⟨⟨result', data, velocity⟩, input, sink⟩
  simp only [Store.converse, hend] at h
  cases h
  obtain ⟨hfits, hfull⟩ :=
    (op.prompt_talk frame store.data store.velocity).hold_bounded hs hroom hend stalls
  simp only [Store.converse, Store.bounded, Store.streams]
  constructor
  · intro hsmall
    rw [hfits hsmall]
  · intro hlarge
    obtain ⟨data, velocity, left, full, hstop, hwritten⟩ := hfull hlarge
    exact ⟨⟨data, velocity, left, full⟩, by rw [hstop], hwritten⟩

def Effect.bounded (limit : Nat) (stalls : Bool) : Effect → Effect
  | .moves frame store => .moves frame (store.bounded limit stalls)
  | .fails error store => .fails error (store.bounded limit stalls)
  | .calls c => .calls c
  | .returns => .returns

theorem Frame.effect_bounded {frame : Frame} {c : Char} {store : Store} {effect : Effect}
    {limit : Nat} (he : frame.effect c store = effect) (hs : store.sink.limit = none)
    (hroom : store.sink.written.size ≤ limit) (stalls : Bool) :
    ((effect.left store).sink.written.size ≤ limit →
      frame.effect c (store.bounded limit stalls) = effect.bounded limit stalls) ∧
    (limit < (effect.left store).sink.written.size → ∃ full,
      frame.effect c (store.bounded limit stalls) = .fails (.stream (.overrun stalls)) full ∧
      full.sink.written.toList = (effect.left store).sink.written.toList.take limit) := by
  have hnot : ¬ limit < store.sink.written.size := Nat.not_lt.2 hroom
  subst he
  unfold Frame.effect
  cases frame.inString with
  | true =>
    by_cases hq : c = '"' <;> simp only [hq, ↓reduceIte] <;>
      exact ⟨fun _ => rfl, fun hfull => absurd hfull hnot⟩
  | false =>
    simp only [Bool.false_eq_true, ↓reduceIte]
    cases Command.decode c with
    | quote | ret | call => exact ⟨fun _ => rfl, fun hfull => absurd hfull hnot⟩
    | op op =>
      rcases hr : op.run frame store with ⟨_ | _, after⟩
      all_goals
        obtain ⟨hfits, hfull⟩ := Op.run_bounded hr hs hroom stalls
        simp only [hr, Effect.left]
        constructor
        · intro hsmall
          rw [hfits hsmall]
          rfl
        · intro hlarge
          obtain ⟨full, hstop, hwritten⟩ := hfull hlarge
          exact ⟨full, by rw [hstop]; rfl, hwritten⟩

namespace Machine

def bounded (machine : Machine) (limit : Nat) (stalls : Bool) : Machine :=
  { machine with store := machine.store.bounded limit stalls }

section
variable {reg : Registry} {machine after last : Machine} {outcome : Outcome} {limit fuel : Nat}
  {result : Except RunError Unit} {key : Key}

theorem grows_step (reg : Registry) (machine : Machine) :
    machine.store.sink.Grows (step reg machine).2.store.sink := by
  have hstreams := congrArg Prod.snd (streams_step reg machine)
  rw [show (step reg machine).2.store.sink = _ from hstreams]
  exact Stream.Sink.grows_foldl_serve machine.streams machine.requests

theorem grows_drive (h : drive reg fuel machine = some (result, last)) :
    machine.store.sink.Grows last.store.sink :=
  drive_invariant (P := fun next => machine.store.sink.Grows next.store.sink)
    (fun next hnext => hnext.trans (grows_step reg next)) .refl h

theorem call_bounded (reg : Registry) (machine : Machine) (frame : Frame) (c : Char)
    (limit : Nat) (stalls : Bool) :
    (call reg machine frame c).2.store.sink = machine.store.sink ∧
      call reg (machine.bounded limit stalls) frame c =
        ((call reg machine frame c).1, (call reg machine frame c).2.bounded limit stalls) := by
  unfold call
  cases reg.get? (.command c) <;> exact ⟨rfl, rfl⟩

theorem ret_bounded (machine : Machine) (frame : Frame) (limit : Nat) (stalls : Bool) :
    (machine.ret frame).2.store.sink = machine.store.sink ∧
      (machine.bounded limit stalls).ret frame =
        ((machine.ret frame).1, (machine.ret frame).2.bounded limit stalls) := by
  obtain ⟨⟨data, velocity, input, sink⟩, frames, steps, journal⟩ := machine
  rcases frames with _ | ⟨caller, callers⟩
  · exact ⟨rfl, rfl⟩
  · rcases velocity with _ | ⟨vy, _ | ⟨vx, rest⟩⟩ <;> exact ⟨rfl, rfl⟩

/-- A step with a sink that has a limit does the same as without one, if all that has been written
fits. Otherwise it fails, and the sink has what fits. -/
theorem step_bounded (h : step reg machine = (outcome, after))
    (hs : machine.store.sink.limit = none) (hroom : machine.store.sink.written.size ≤ limit)
    (stalls : Bool) :
    (after.store.sink.written.size ≤ limit →
      step reg (machine.bounded limit stalls) = (outcome, after.bounded limit stalls)) ∧
    (limit < after.store.sink.written.size → ∃ full,
      step reg (machine.bounded limit stalls) = (.failed (.stream (.overrun stalls)), full) ∧
      full.store.sink.written.toList = after.store.sink.written.toList.take limit) := by
  obtain ⟨store, frames, steps, journal⟩ := machine
  have hnot : ¬ limit < store.sink.written.size := Nat.not_lt.2 hroom
  cases frames with
  | nil =>
    cases h
    exact ⟨fun _ => rfl, fun hfull => absurd hfull hnot⟩
  | cons frame callers =>
    cases hc : frame.current? with
    | none =>
      simp only [step, hc] at h
      cases h
      simp only [step, bounded, hc]
      exact ⟨fun _ => trivial, fun hfull => absurd hfull hnot⟩
    | some c =>
      simp only [step, hc, execute_eq] at h
      simp only [step, bounded, hc, execute_eq]
      cases he : frame.effect c store with
      | moves next left | fails error left =>
        obtain ⟨hfits, hfull⟩ := Frame.effect_bounded he hs hroom stalls
        simp only [he] at h
        cases h
        constructor
        · intro hsmall
          simp only [hfits hsmall, Effect.bounded]
          rfl
        · intro hlarge
          obtain ⟨full, hstop, hwritten⟩ := hfull hlarge
          exact ⟨_, by simp only [hstop]; rfl, hwritten⟩
      | calls d =>
        obtain ⟨hsink, hcall⟩ := call_bounded reg (counted ⟨store, callers, steps, journal⟩ frame c)
          frame d limit stalls
        obtain ⟨hfits, -⟩ := Frame.effect_bounded he hs hroom stalls
        simp only [he] at h
        rw [h] at hsink hcall
        simp only [hfits hroom, Effect.bounded]
        exact ⟨fun _ => hcall, fun hfull => absurd (hsink ▸ hfull) hnot⟩
      | returns =>
        obtain ⟨hsink, hret⟩ := ret_bounded (counted ⟨store, callers, steps, journal⟩ frame c)
          frame limit stalls
        obtain ⟨hfits, -⟩ := Frame.effect_bounded he hs hroom stalls
        simp only [he] at h
        rw [h] at hsink hret
        simp only [hfits hroom, Effect.bounded]
        exact ⟨fun _ => hret, fun hfull => absurd (hsink ▸ hfull) hnot⟩

-- ---------------------------------------------------------------------------
-- Runs
-- ---------------------------------------------------------------------------

theorem drive_bounded (h : drive reg fuel machine = some (result, last))
    (hs : machine.store.sink.limit = none) (hroom : machine.store.sink.written.size ≤ limit)
    (stalls : Bool) :
    (last.store.sink.written.size ≤ limit →
      drive reg fuel (machine.bounded limit stalls) = some (result, last.bounded limit stalls)) ∧
    (limit < last.store.sink.written.size → ∃ full,
      drive reg fuel (machine.bounded limit stalls) =
        some (.error (.stream (.overrun stalls)), full) ∧
      full.store.sink.written.toList = last.store.sink.written.toList.take limit) := by
  induction fuel generalizing machine with
  | zero => cases h
  | succ fuel ih =>
    rcases hstep : step reg machine with ⟨outcome, next⟩
    obtain ⟨hfits, hfull⟩ := step_bounded hstep hs hroom stalls
    have hgrows := grows_step reg machine
    rw [hstep] at hgrows
    simp only [drive, hstep] at h
    cases outcome with
    | finished | failed =>
      cases h
      constructor
      · intro hsmall
        simp only [drive, hfits hsmall]
      · intro hlarge
        obtain ⟨full, hstop, hwritten⟩ := hfull hlarge
        exact ⟨full, by simp only [drive, hstop], hwritten⟩
    | running =>
      by_cases hsmall : next.store.sink.written.size ≤ limit
      · simp only [drive, hfits hsmall]
        exact ih h (hgrows.limit.trans hs) hsmall
      · -- here the runs part: the one with the limit is over
        have hrest := grows_drive h
        obtain ⟨full, hstop, hwritten⟩ := hfull (Nat.lt_of_not_le hsmall)
        refine ⟨fun hlast => absurd (Nat.le_trans hrest.size_le hlast) hsmall, fun _ => ?_⟩
        refine ⟨full, by simp only [drive, hstop], ?_⟩
        rw [hwritten, hrest.take_eq (Nat.le_of_not_le hsmall)]

theorem conclude_bounded (key : Key) (result : Except RunError Unit) (machine : Machine)
    (limit : Nat) (stalls : Bool) :
    conclude key result (machine.bounded limit stalls) =
      ((conclude key result machine).1,
        (conclude key result machine).2.bounded limit stalls) := by
  unfold conclude bounded Store.bounded
  simp only [Stream.Sink.flush_bounded]
  cases result <;> rfl

theorem written_conclude (key : Key) (result : Except RunError Unit) (machine : Machine) :
    (conclude key result machine).2.store.sink.written = machine.store.sink.written := by
  rw [conclude_store]
  exact Stream.Sink.written_flush

/-- Let a run on a machine whose sink has no limit end. With a limit that has room for what has been
written before, the run ends too. If all that has been written by then is within the limit, it ends
the same. Otherwise it ends with the error of a full sink, and of the bytes that the unlimited sink
has, in their order, the sink has the first ones up to the limit. -/
theorem bounded_sink_truncates (h : run reg fuel key machine = some (result, last))
    (hs : machine.store.sink.limit = none) (hroom : machine.store.sink.written.size ≤ limit)
    (stalls : Bool) :
    (last.store.sink.written.size ≤ limit →
      run reg fuel key (machine.bounded limit stalls) =
        some (result, last.bounded limit stalls)) ∧
    (limit < last.store.sink.written.size → ∃ error full,
      run reg fuel key (machine.bounded limit stalls) = some (.error (.stream error), full) ∧
      error.message = (if stalls then "failed to write whole buffer" else "sink full") ∧
      full.store.sink.written.toList = last.store.sink.written.toList.take limit) := by
  rcases run_cases h with ⟨hb, he⟩ | ⟨codebox, driven, final, hb, hd, he⟩
  · have hwritten := written_conclude key (.error (missing key)) { machine with frames := [] }
    have hend := conclude_bounded key (.error (missing key)) { machine with frames := [] } limit
      stalls
    rw [← he] at hwritten hend
    rw [hwritten, run_of_none hb]
    exact ⟨fun _ => congrArg some hend, fun hfull => absurd hroom (Nat.not_le.2 hfull)⟩
  · have hstart : (machine.bounded limit stalls).entered key codebox =
        (machine.entered key codebox).bounded limit stalls := rfl
    have hwritten := written_conclude key driven final
    rw [← he] at hwritten
    obtain ⟨hfits, hfull⟩ := drive_bounded hd hs hroom stalls
    rw [hwritten, run_of_some hb, hstart]
    constructor
    · intro hsmall
      simp only [hfits hsmall, Option.map_some, conclude_bounded, ← he]
    · intro hlarge
      obtain ⟨full, hstop, hcut⟩ := hfull hlarge
      refine ⟨.overrun stalls, (conclude key (.error (.stream (.overrun stalls))) full).2, ?_, rfl, ?_⟩
      · simp only [hstop, Option.map_some]
        rfl
      · rw [written_conclude, hcut]

end

def chatter : Registry := .ofList
  [⟨"", 1, 0, [['o'], ['f'], ['@']], ⟨"t", 1⟩⟩, ⟨"f", 1, 0, [['!'], ['@']], ⟨"t", 8⟩⟩]

theorem bounded_sink_truncates_chatter :
    ∃ last, run chatter 9 .main (start [233] [] [] .unlimited (.start .warn)) = some (.ok (), last) ∧
      last.store.sink.written.size = 95 ∧
      run chatter 9 .main ((start [233] [] [] .unlimited (.start .warn)).bounded 95 false) =
        some (.ok (), last.bounded 95 false) ∧
      ∃ error full,
        run chatter 9 .main ((start [233] [] [] .unlimited (.start .warn)).bounded 4 true) =
          some (.error (.stream error), full) ∧
        error.message = "failed to write whole buffer" ∧
        full.store.sink.written.toList = [0xC3, 0xA9, 0x21, 0x20] := by
  obtain ⟨last, hlast, hsize, hfirst⟩ : ∃ last,
      run chatter 9 .main (start [233] [] [] .unlimited (.start .warn)) = some (.ok (), last) ∧
        last.store.sink.written.size = 95 ∧
        last.store.sink.written.toList.take 4 = [0xC3, 0xA9, 0x21, 0x20] :=
    ⟨_, rfl, rfl, rfl⟩
  obtain ⟨hfits, -⟩ := bounded_sink_truncates hlast rfl (Nat.zero_le 95) false
  obtain ⟨-, hfull⟩ := bounded_sink_truncates hlast rfl (Nat.zero_le 4) true
  obtain ⟨error, full, hrun, hmessage, hcut⟩ := hfull (by omega)
  exact ⟨last, hlast, hsize, hfits (by omega), error, full, hrun, hmessage, hcut.trans hfirst⟩

end Machine

end Gridwalk
