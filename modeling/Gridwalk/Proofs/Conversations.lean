import Gridwalk.Proofs.StepLaws

/-!
# What commands ask of the streams

A command that uses the streams holds a conversation with them: it asks for a flush, for a byte or
for a text to be written, and what it asks next depends on the answers. `Op.talk` is the
conversation of a command; every command does what holding its conversation does
(`Op.run_eq_converse`), so a command learns of the streams what they answer and nothing else.

`Machine.requests` lists what a step asks of the streams. The streams after a step are those that
have been asked just that (`streams_step`).
-/

namespace Gridwalk

-- ---------------------------------------------------------------------------
-- Conversations
-- ---------------------------------------------------------------------------

namespace Stream

inductive Request
  | flush
  | read
  | write (text : String)
  deriving DecidableEq, Repr

def Request.serve : Script × Sink → Request → Script × Sink
  | (input, sink), .flush => (input, sink.flush.2)
  | (input, sink), .read => (input.next.2, sink)
  | (input, sink), .write text => (input, (sink.writeText text).2)

/-- A conversation with the streams that ends with a value. -/
inductive Talk (α : Type)
  | done (value : α)
  | flush (next : Except Error Unit → Talk α)
  | read (next : Reading → Talk α)
  | write (text : String) (next : Except Error Unit → Talk α)

namespace Talk

section
variable {α : Type}

def hold : Talk α → Script × Sink → α × Script × Sink
  | .done value, streams => (value, streams)
  | .flush next, (input, sink) => (next sink.flush.1).hold (input, sink.flush.2)
  | .read next, (input, sink) => (next input.next.1).hold (input.next.2, sink)
  | .write text next, (input, sink) =>
    (next (sink.writeText text).1).hold (input, (sink.writeText text).2)

def requests : Talk α → Script × Sink → List Request
  | .done _, _ => []
  | .flush next, (input, sink) => .flush :: (next sink.flush.1).requests (input, sink.flush.2)
  | .read next, (input, sink) => .read :: (next input.next.1).requests (input.next.2, sink)
  | .write text next, (input, sink) =>
    .write text :: (next (sink.writeText text).1).requests (input, (sink.writeText text).2)

theorem hold_snd (talk : Talk α) (streams : Script × Sink) :
    (talk.hold streams).2 = (talk.requests streams).foldl Request.serve streams := by
  induction talk generalizing streams with
  | done value => rfl
  | flush next ih => exact ih _ _
  | read next ih => exact ih _ _
  | write text next ih => exact ih _ _

def following : Nat → (Except Error (List UInt8) → Talk α) → Talk α
  | 0, next => next (.ok [])
  | n + 1, next => .read fun
    | .ended => next (.error .invalidText)
    | .failed error => next (.error (if error.kind = .unexpectedEnd then .invalidText else error))
    | .byte byte => following n fun
      | .error error => next (.error error)
      | .ok bytes => next (.ok (byte :: bytes))

def readChar (next : Except Error (Option Char) → Talk α) : Talk α := .read fun
  | .ended => next (.ok none)
  | .failed error => next (.error error)
  | .byte lead =>
    match Utf8.following? lead with
    | none => next (.error .invalidText)
    | some n => following n fun
      | .error error => next (.error error)
      | .ok bytes =>
        match Utf8.decode? (lead :: bytes) with
        | none => next (.error .invalidText)
        | some c => next (.ok (some c))

theorem hold_following (n : Nat) (next : Except Error (List UInt8) → Talk α) (input : Script)
    (sink : Sink) :
    (following n next).hold (input, sink) =
      (next (input.following n).1).hold ((input.following n).2, sink) := by
  induction n generalizing next input with
  | zero => rfl
  | succ n ih =>
    simp only [following, hold, Script.following]
    rcases input.next with ⟨_ | _ | _, left⟩
    · simp only [ih]
      rcases left.following n with ⟨_ | _, _⟩ <;> rfl
    · rfl
    · rfl

theorem hold_readChar (next : Except Error (Option Char) → Talk α) (input : Script)
    (sink : Sink) :
    (readChar next).hold (input, sink) =
      (next input.readChar.1).hold (input.readChar.2, sink) := by
  simp only [readChar, hold, Script.readChar]
  rcases input.next with ⟨lead | _ | _, left⟩
  · simp only
    cases Utf8.following? lead with
    | none => rfl
    | some n =>
      simp only [hold_following]
      rcases left.following n with ⟨_ | bytes, _⟩
      · rfl
      · simp only
        cases Utf8.decode? (lead :: bytes) <;> rfl
  · rfl
  · rfl

end

end Talk

end Stream

-- ---------------------------------------------------------------------------
-- Commands
-- ---------------------------------------------------------------------------

open Gridwalk.Stream (Talk Request)

structure Ending where
  result : Except Fault Unit
  data : List Int64
  velocity : List Int64

namespace Store

def streams (store : Store) : Stream.Script × Stream.Sink := (store.input, store.sink)

def silent (data velocity : List Int64) : Store := ⟨data, velocity, [], .unlimited⟩

def converse (store : Store) (talk : Talk Ending) : Except Fault Unit × Store :=
  match talk.hold store.streams with
  | (⟨result, data, velocity⟩, input, sink) => (result, ⟨data, velocity, input, sink⟩)

/-- What `f` does to a store has nothing to do with the streams. -/
def Deaf (f : Store → Except Fault Unit × Store) : Prop :=
  ∀ store input sink, f { store with input, sink } = ((f store).1, { (f store).2 with input, sink })

theorem deaf_pushChecked (result : Option Int64) : Deaf fun store => store.pushChecked result := by
  intro store input sink
  cases result <;> rfl

theorem deaf_take {f : Int64 → Store → Except Fault Unit × Store} (hf : ∀ a, Deaf (f a)) :
    Deaf fun store => store.take f := by
  intro store input sink
  obtain ⟨data, velocity, input', sink'⟩ := store
  cases data with
  | nil => rfl
  | cons a data => exact hf a ⟨data, velocity, input', sink'⟩ input sink

theorem deaf_takeTwo {f : Int64 → Int64 → Store → Except Fault Unit × Store}
    (hf : ∀ a b, Deaf (f a b)) : Deaf fun store => store.takeTwo f :=
  deaf_take fun a => deaf_take fun b => hf a b

end Store

namespace Op

def usesStreams : Op → Bool
  | .input | .output | .debug => true
  | _ => false

open Store in
theorem deaf_run (frame : Frame) {op : Op} (h : op.usesStreams = false) :
    Store.Deaf fun store => op.run frame store := by
  cases op with
  | nop | push => exact fun _ _ _ => rfl
  | add | subtract | multiply => exact deaf_takeTwo fun a b => deaf_pushChecked _
  | divide =>
    refine deaf_takeTwo fun a b => ?_
    by_cases ha : a = 0
    · simp only [ha, ↓reduceIte]
      exact fun _ _ _ => rfl
    · simp only [ha, ↓reduceIte]
      exact deaf_pushChecked _
  | positive | duplicate | discard | toVelocity =>
    simp only [Op.run]
    exact deaf_take fun a _ _ _ => rfl
  | swap => exact deaf_takeTwo fun a b _ _ _ => rfl
  | fromVelocity =>
    rintro ⟨data, velocity, input', sink'⟩ input sink
    cases velocity <;> rfl
  | input | output | debug => cases h

def tell (text : String) (data velocity : List Int64) : Talk Ending :=
  .write text fun answer => .done ⟨answer.mapError .stream, data, velocity⟩

def talk (frame : Frame) (data velocity : List Int64) (op : Op) : Talk Ending :=
  match op with
  | .input => .flush fun
    | .error error => .done ⟨.error (.stream error), data, velocity⟩
    | .ok () => .readChar fun
      | .error error => .done ⟨.error (.stream error), data, velocity⟩
      | .ok c => .done ⟨.ok (), c.elim (-1) Word.ofChar :: data, velocity⟩
  | .output =>
    match data with
    | [] => .done ⟨.error .stackUnderflow, [], velocity⟩
    | a :: data =>
      match Word.toChar? a with
      | none => .done ⟨.error (.invalidCharacter a), data, velocity⟩
      | some c => tell c.toString data velocity
  | .debug => tell ((Store.silent data velocity).dump frame) data velocity
  | op =>
    match op.run frame (.silent data velocity) with
    | (result, store) => .done ⟨result, store.data, store.velocity⟩

theorem talk_of_silent (frame : Frame) (data velocity : List Int64) {op : Op}
    (h : op.usesStreams = false) :
    op.talk frame data velocity =
      match op.run frame (.silent data velocity) with
      | (result, store) => .done ⟨result, store.data, store.velocity⟩ := by
  cases op with
  | input | output | debug => cases h
  | _ => rfl

theorem converse_tell (store : Store) (text : String) :
    store.converse (tell text store.data store.velocity) = store.write text := by
  simp only [Store.converse, Store.streams, tell, Talk.hold, Store.write]
  rcases store.sink.writeText text with ⟨_ | _, _⟩ <;> rfl

theorem run_eq_converse (frame : Frame) (store : Store) (op : Op) :
    op.run frame store = store.converse (op.talk frame store.data store.velocity) := by
  cases hs : op.usesStreams with
  | false =>
    have hdeaf := deaf_run frame hs (.silent store.data store.velocity) store.input store.sink
    rw [talk_of_silent frame _ _ hs]
    exact hdeaf
  | true =>
    cases op with
    | input =>
      simp only [Op.run, Store.read, Store.converse, Store.streams, talk, Talk.hold]
      rcases store.sink.flush with ⟨_ | _, sink⟩
      · rfl
      · simp only [Talk.hold_readChar]
        rcases store.input.readChar with ⟨_ | _, _⟩ <;> rfl
    | output =>
      obtain ⟨data, velocity, input, sink⟩ := store
      cases data with
      | nil => rfl
      | cons a data =>
        simp only [Op.run, Store.take, talk]
        cases Word.toChar? a with
        | none => rfl
        | some c => exact (converse_tell ⟨data, velocity, input, sink⟩ c.toString).symm
    | debug =>
      have hdump : (Store.silent store.data store.velocity).dump frame = store.dump frame := rfl
      simp only [Op.run_debug, talk, hdump, converse_tell]
    | _ => cases hs

end Op

-- ---------------------------------------------------------------------------
-- Steps
-- ---------------------------------------------------------------------------

def Frame.requests (frame : Frame) (c : Char) (store : Store) : List Request :=
  if frame.inString then []
  else
    match Command.decode c with
    | .op op => (op.talk frame store.data store.velocity).requests store.streams
    | _ => []

/-- The store that an effect leaves, before velocities are saved or restored. -/
def Effect.left (store : Store) : Effect → Store
  | .moves _ after | .fails _ after => after
  | .calls _ | .returns => store

theorem Frame.streams_left {frame : Frame} {c : Char} {store : Store} {effect : Effect}
    (h : frame.effect c store = effect) :
    (effect.left store).streams = (frame.requests c store).foldl Request.serve store.streams := by
  subst h
  unfold Frame.effect Frame.requests
  cases frame.inString with
  | true => by_cases hq : c = '"' <;> simp only [hq, ↓reduceIte] <;> rfl
  | false =>
    simp only [Bool.false_eq_true, ↓reduceIte]
    cases Command.decode c with
    | quote | ret | call => rfl
    | op op =>
      simp only [← Talk.hold_snd, Op.run_eq_converse, Store.converse]
      rcases (op.talk frame store.data store.velocity).hold store.streams with
        ⟨⟨_ | _, _, _⟩, _, _⟩ <;> rfl

namespace Machine

def streams (machine : Machine) : Stream.Script × Stream.Sink := machine.store.streams

def requests (machine : Machine) : List Request :=
  match machine.frames with
  | [] => []
  | frame :: _ => frame.current?.elim [] fun c => frame.requests c machine.store

theorem Move.streams_eq {reg : Registry} {machine after : Machine} {outcome : Outcome}
    (h : Move reg machine outcome after) :
    after.streams = machine.requests.foldl Request.serve machine.streams := by
  cases h with
  | idle => rfl
  | strays hc =>
    simp only [requests, hc]
    rfl
  | moves hc he | fails hc he | calls hc he | misses hc he | ends hc he | resumes hc he
  | starves hc he =>
    simp only [requests, hc]
    exact Frame.streams_left he

/-- A step changes the streams by what it asks of them and by nothing else. -/
theorem streams_step (reg : Registry) (machine : Machine) :
    (step reg machine).2.streams = machine.requests.foldl Request.serve machine.streams :=
  (move_step reg machine).streams_eq

end Machine

end Gridwalk
