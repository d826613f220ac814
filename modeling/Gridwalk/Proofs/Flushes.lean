import Gridwalk.Proofs.Conversations

/-!
# When output is flushed

Output is flushed before input is read, so that whoever types the input has seen the output, and
once more at the end of every call. Nothing else flushes. `Session` lists what calls and single
steps, in any order, ask of the streams; `flushes_are_disciplined` says where the flushes stand in
that list, how many there are, and which error counts when a flush fails.
-/

namespace Gridwalk

open Gridwalk.Stream (Talk Request)

-- ---------------------------------------------------------------------------
-- Commands
-- ---------------------------------------------------------------------------

namespace Stream

def OnlyReads (requests : List Request) : Prop := ∀ request ∈ requests, request = .read

theorem OnlyReads.nil : OnlyReads [] := fun _ h => nomatch h

theorem OnlyReads.cons {requests : List Request} (h : OnlyReads requests) :
    OnlyReads (.read :: requests) :=
  List.forall_mem_cons.2 ⟨rfl, h⟩

namespace Talk

section
variable {α : Type}

theorem onlyReads_following (n : Nat) {next : Except Error (List UInt8) → Talk α}
    (h : ∀ answer streams, OnlyReads ((next answer).requests streams)) (streams : Script × Sink) :
    OnlyReads ((following n next).requests streams) := by
  induction n generalizing next streams with
  | zero => exact h _ _
  | succ n ih =>
    simp only [following, requests]
    rcases streams.1.next with ⟨byte | _ | _, left⟩
    · refine .cons (ih ?_ _)
      intro answer streams
      cases answer <;> exact h _ _
    · exact .cons (h _ _)
    · exact .cons (h _ _)

theorem requests_readChar {next : Except Error (Option Char) → Talk α}
    (h : ∀ answer streams, OnlyReads ((next answer).requests streams)) (streams : Script × Sink) :
    ∃ n, (readChar next).requests streams = List.replicate (n + 1) .read := by
  suffices hmore : ∃ more, (readChar next).requests streams = .read :: more ∧ OnlyReads more by
    obtain ⟨more, hreads, honly⟩ := hmore
    exact ⟨more.length, hreads.trans (List.eq_replicate_iff.2 ⟨rfl, honly.cons⟩)⟩
  refine ⟨_, rfl, ?_⟩
  rcases streams.1.next with ⟨lead | _ | _, left⟩
  · simp only
    cases Utf8.following? lead with
    | none => exact h _ _
    | some n =>
      refine onlyReads_following n ?_ _
      intro answer streams
      cases answer with
      | error => exact h _ _
      | ok bytes =>
        simp only
        split <;> exact h _ _
  · exact h _ _
  · exact h _ _

end

end Talk

end Stream

namespace Op

section
variable (frame : Frame) (data velocity : List Int64) (streams : Stream.Script × Stream.Sink)

theorem requests_input :
    (streams.2.flush.1 = .ok () ∧ ∃ n, (talk frame data velocity .input).requests streams =
        .flush :: List.replicate (n + 1) .read) ∨
    ∃ error, streams.2.flush.1 = .error error ∧
      (talk frame data velocity .input).requests streams = [.flush] := by
  simp only [talk, Talk.requests]
  rcases streams.2.flush with ⟨error | _, sink⟩
  · exact .inr ⟨error, rfl, rfl⟩
  · refine .inl ⟨rfl, (Talk.requests_readChar ?_ _).imp fun n hn => congrArg (.flush :: ·) hn⟩
    intro answer streams
    cases answer <;> exact .nil

theorem requests_of_ne_input {op : Op} (h : op ≠ .input) :
    .flush ∉ (op.talk frame data velocity).requests streams ∧
      .read ∉ (op.talk frame data velocity).requests streams := by
  cases op with
  | input => exact absurd rfl h
  | output =>
    cases data with
    | nil => simp [talk, Talk.requests]
    | cons a data =>
      simp only [talk]
      cases Word.toChar? a <;> simp [tell, Talk.requests]
  | debug => simp [talk, tell, Talk.requests]
  | _ => simp [talk, Talk.requests]

end

end Op

-- ---------------------------------------------------------------------------
-- Steps
-- ---------------------------------------------------------------------------

namespace Machine

def isReading (machine : Machine) : Bool := machine.command? = some (.op .input)

section
variable {reg : Registry} {machine after : Machine} {frame : Frame} {callers : List Frame}

theorem requests_of_command {op : Op} (h : machine.command? = some (.op op)) :
    ∃ frame callers c, machine.frames = frame :: callers ∧ frame.inString = false ∧
      frame.current? = some c ∧ Command.decode c = .op op ∧
      machine.requests =
        (op.talk frame machine.store.data machine.store.velocity).requests machine.streams := by
  unfold command? at h
  cases hf : machine.frames with
  | nil => simp [hf] at h
  | cons frame callers =>
    rw [hf] at h
    cases hs : frame.inString with
    | true => simp [hs] at h
    | false =>
      simp only [hs, Bool.false_eq_true, ↓reduceIte, Option.map_eq_some_iff] at h
      obtain ⟨c, hc, hd⟩ := h
      refine ⟨frame, callers, c, rfl, hs, hc, hd, ?_⟩
      simp only [requests, hf, hc, Option.elim_some, Frame.requests, hs, hd, Bool.false_eq_true,
        ↓reduceIte]
      rfl

theorem requests_of_no_command (h : ∀ op, machine.command? ≠ some (.op op)) :
    machine.requests = [] := by
  obtain ⟨store, frames, steps, journal⟩ := machine
  cases frames with
  | nil => rfl
  | cons frame callers =>
    simp only [command?] at h
    simp only [requests, Frame.requests]
    cases hc : frame.current? with
    | none => rfl
    | some c =>
      cases hs : frame.inString with
      | true => rfl
      | false =>
        cases hd : Command.decode c with
        | op op => exact absurd (by simp [hs, hc, hd]) (h op)
        | quote | ret | call => simp [hd]

/-- A step that reads flushes first and asks for nothing but bytes then. If the flush fails, so does
the step, with the flush's error, and of the store only the sink has changed. -/
theorem requests_of_isReading (reg : Registry) (h : machine.isReading = true) :
    (machine.store.sink.flush.1 = .ok () ∧
      ∃ n, machine.requests = .flush :: List.replicate (n + 1) .read) ∨
    ∃ error after, machine.store.sink.flush.1 = .error error ∧ machine.requests = [.flush] ∧
      step reg machine = (.failed (.stream error), after) ∧
      after.store = { machine.store with sink := machine.store.sink.flush.2 } := by
  obtain ⟨frame, callers, c, hf, hs, hc, hd, hrequests⟩ :=
    requests_of_command (of_decide_eq_true h)
  rw [hrequests]
  rcases Op.requests_input frame machine.store.data machine.store.velocity machine.streams with
    hok | ⟨error, herror, hflush⟩
  · exact .inl hok
  · obtain ⟨store, frames, steps, journal⟩ := machine
    obtain rfl : frames = frame :: callers := hf
    have he : frame.effect c store =
        .fails (.stream error) { store with sink := store.sink.flush.2 } := by
      have hread : store.read =
          (.error (.stream error), { store with sink := store.sink.flush.2 }) := by
        rw [Store.read, show store.sink.flush = (.error error, store.sink.flush.2) from
          Prod.ext herror rfl]
      simp only [Frame.effect, hs, hd, Op.run, hread, Bool.false_eq_true, ↓reduceIte]
      rfl
    obtain ⟨journal', hstep⟩ := (Move.fails hc he :
      Move reg ⟨store, frame :: callers, steps, journal⟩ _ ⟨_, _, _, journal⟩).step_eq
    exact .inr ⟨error, _, herror, hflush, hstep, rfl⟩

theorem requests_of_not_isReading (h : machine.isReading = false) :
    .flush ∉ machine.requests ∧ .read ∉ machine.requests := by
  by_cases hop : ∃ op, machine.command? = some (.op op)
  · obtain ⟨op, hop⟩ := hop
    obtain ⟨frame, callers, c, -, -, -, -, hrequests⟩ := requests_of_command hop
    rw [hrequests]
    refine Op.requests_of_ne_input _ _ _ _ ?_
    rintro rfl
    simp [isReading, hop] at h
  · have hnone : machine.requests = [] := requests_of_no_command fun op he => hop ⟨op, he⟩
    rw [hnone]
    exact ⟨List.not_mem_nil, List.not_mem_nil⟩

theorem count_flush_requests (machine : Machine) :
    machine.requests.count .flush = if machine.isReading then 1 else 0 := by
  cases h : machine.isReading with
  | false => exact List.count_eq_zero.2 (requests_of_not_isReading h).1
  | true =>
    rcases requests_of_isReading ∅ h with ⟨-, n, hn⟩ | ⟨_, _, -, hn, -⟩
    · rw [hn, List.count_cons_self, List.count_replicate]
      rfl
    · rw [hn]
      rfl

end

-- ---------------------------------------------------------------------------
-- Calls
-- ---------------------------------------------------------------------------

def trail (reg : Registry) : Nat → Machine → List Machine
  | 0, _ => []
  | fuel + 1, machine =>
    machine ::
      match step reg machine with
      | (.running, next) => trail reg fuel next
      | _ => []

def runTrail (reg : Registry) (fuel : Nat) (key : Key) (machine : Machine) : List Machine :=
  match reg.get? key with
  | none => []
  | some codebox => trail reg fuel (machine.entered key codebox)

/-- What the run of the codebox under `key` comes to before its output is flushed. -/
def unflushed (reg : Registry) (fuel : Nat) (key : Key) (machine : Machine) :
    Option (Except RunError Unit × Machine) :=
  match reg.get? key with
  | none => some (.error (missing key), { machine with frames := [] })
  | some codebox => drive reg fuel (machine.entered key codebox)

section
variable {reg : Registry} {machine last ending : Machine} {fuel : Nat} {key : Key}
  {result own : Except RunError Unit}

theorem run_eq_unflushed (reg : Registry) (fuel : Nat) (key : Key) (machine : Machine) :
    run reg fuel key machine = (unflushed reg fuel key machine).map fun (own, ending) =>
      conclude key own ending := by
  unfold unflushed
  cases hb : reg.get? key with
  | none => rw [run_of_none hb]; rfl
  | some codebox => rw [run_of_some hb]

theorem streams_drive (h : drive reg fuel machine = some (result, last)) :
    last.streams = ((trail reg fuel machine).flatMap requests).foldl Request.serve
      machine.streams := by
  induction fuel generalizing machine with
  | zero => cases h
  | succ fuel ih =>
    have hnext := streams_step reg machine
    rcases hs : step reg machine with ⟨outcome, next⟩
    simp only [drive, hs] at h
    simp only [trail, hs, List.flatMap_cons, List.foldl_append] at hnext ⊢
    rw [← hnext]
    cases outcome with
    | running => exact ih h
    | finished | failed =>
      cases h
      rfl

theorem streams_unflushed (h : unflushed reg fuel key machine = some (own, ending)) :
    ending.streams = ((runTrail reg fuel key machine).flatMap requests).foldl Request.serve
      machine.streams := by
  unfold unflushed at h
  unfold runTrail
  cases hb : reg.get? key with
  | none =>
    simp only [hb] at h
    cases h
    rfl
  | some codebox =>
    simp only [hb] at h
    exact streams_drive h

/-- A call ends with a flush, whatever has come of it. Its own error counts before the flush's. -/
theorem exists_unflushed (h : run reg fuel key machine = some (result, last)) :
    ∃ own ending, unflushed reg fuel key machine = some (own, ending) ∧
      last.store = { ending.store with sink := ending.store.sink.flush.2 } ∧
      (∀ error, own = .error error → result = .error error) ∧
      (own = .ok () → result = ending.store.sink.flush.1.mapError .stream) := by
  rw [run_eq_unflushed, Option.map_eq_some_iff] at h
  obtain ⟨⟨own, ending⟩, hown, he⟩ := h
  have hresult := conclude_fst key own ending
  have hstore := conclude_store key own ending
  rw [show conclude key own ending = (result, last) from he] at hresult hstore
  refine ⟨own, ending, hown, hstore, ?_, ?_⟩
  · rintro error rfl
    exact hresult
  · rintro rfl
    exact hresult

end

-- ---------------------------------------------------------------------------
-- Sessions
-- ---------------------------------------------------------------------------

inductive Act
  | call (key : Key)
  | step
  deriving DecidableEq, Repr

def Act.isCall : Act → Bool
  | .call _ => true
  | .step => false

/-- `Session reg machine acts trail requests last`: the acts, one after the other and whatever comes
of each, lead from `machine` to `last`. They step from the machines in `trail` and ask `requests` of
the streams. -/
inductive Session (reg : Registry) (machine : Machine) :
    List Act → List Machine → List Request → Machine → Prop
  | start : Session reg machine [] [] [] machine
  | stepped {acts trail requests now} (before : Session reg machine acts trail requests now) :
    Session reg machine (acts ++ [.step]) (trail ++ [now]) (requests ++ now.requests)
      (step reg now).2
  | called {acts trail requests now fuel key result last}
    (before : Session reg machine acts trail requests now)
    (ended : run reg fuel key now = some (result, last)) :
    Session reg machine (acts ++ [.call key]) (trail ++ runTrail reg fuel key now)
      (requests ++ (runTrail reg fuel key now).flatMap Machine.requests ++ [.flush]) last

end Machine

theorem Stream.flushes_serve (streams : Script × Sink) (request : Request) :
    (request.serve streams).2.flushes = streams.2.flushes + if request = .flush then 1 else 0 := by
  obtain ⟨input, sink⟩ := streams
  cases request with
  | flush =>
    simp only [Request.serve, Sink.flush]
    split <;> rfl
  | read => rfl
  | write text =>
    simp only [Request.serve, Sink.writeText, Sink.write]
    split <;> rfl

theorem Stream.flushes_foldl_serve (streams : Script × Sink) (requests : List Request) :
    (requests.foldl Request.serve streams).2.flushes =
      streams.2.flushes + requests.count .flush := by
  induction requests generalizing streams with
  | nil => rfl
  | cons request requests ih =>
    rw [List.foldl_cons, ih, flushes_serve, List.count_cons]
    simp only [beq_iff_eq]
    omega

namespace Machine

section
variable {reg : Registry} {machine last : Machine} {acts : List Act} {trail : List Machine}
  {requests : List Request}

theorem count_flush_flatMap (trail : List Machine) :
    (trail.flatMap Machine.requests).count .flush = trail.countP isReading := by
  induction trail with
  | nil => rfl
  | cons machine trail ih =>
    rw [List.flatMap_cons, List.count_append, count_flush_requests, ih, List.countP_cons,
      Nat.add_comm]

theorem Session.streams_eq (h : Session reg machine acts trail requests last) :
    last.streams = requests.foldl Request.serve machine.streams := by
  induction h with
  | start => rfl
  | stepped before ih => rw [streams_step, ih, List.foldl_append]
  | called before ended ih =>
    obtain ⟨own, ending, hown, hstore, -⟩ := exists_unflushed ended
    rw [List.foldl_append, List.foldl_append, ← ih, ← streams_unflushed hown, streams, hstore]
    rfl

theorem Session.count_flush (h : Session reg machine acts trail requests last) :
    requests.count .flush = trail.countP isReading + acts.countP Act.isCall := by
  induction h with
  | start => rfl
  | @stepped acts trail requests now before ih =>
    have hstep : ([Act.step].countP Act.isCall) = 0 := rfl
    rw [List.count_append, List.countP_append, List.countP_append, ih, count_flush_requests,
      List.countP_singleton, hstep]
    omega
  | @called acts trail requests now fuel key result last before ended ih =>
    have hcall : ([Act.call key].countP Act.isCall) = 1 := rfl
    rw [List.count_append, List.count_append, List.countP_append, List.countP_append, ih,
      count_flush_flatMap, List.count_singleton_self, hcall]
    omega

/-- A step that carries out an input command first asks for a flush and then for bytes, and for
nothing else; if the flush fails, it asks for no byte, fails with the flush's error and leaves the
stacks and the input as they are. No other step asks for a flush or a byte. A call asks for what
its steps ask for and then for one more flush, also if there is no codebox to call; the flush's
error is the call's result only if the call had no error of its own. So over any sequence of calls
and steps there are as many flushes as input commands and calls together. -/
theorem flushes_are_disciplined (reg : Registry) :
    (∀ machine,
      (machine.command? = some (.op .input) →
        (machine.store.sink.flush.1 = .ok () ∧
          ∃ n, machine.requests = .flush :: List.replicate (n + 1) .read) ∨
        ∃ error after, machine.store.sink.flush.1 = .error error ∧ machine.requests = [.flush] ∧
          step reg machine = (.failed (.stream error), after) ∧
          after.store = { machine.store with sink := machine.store.sink.flush.2 }) ∧
      (machine.command? ≠ some (.op .input) →
        .flush ∉ machine.requests ∧ .read ∉ machine.requests)) ∧
    (∀ fuel key machine result last, run reg fuel key machine = some (result, last) →
      ∃ own ending, unflushed reg fuel key machine = some (own, ending) ∧
        ending.streams = ((runTrail reg fuel key machine).flatMap Machine.requests).foldl
          Request.serve machine.streams ∧
        last.store = { ending.store with sink := ending.store.sink.flush.2 } ∧
        (∀ error, own = .error error → result = .error error) ∧
        (own = .ok () → result = ending.store.sink.flush.1.mapError .stream)) ∧
    ∀ machine acts trail requests last, Session reg machine acts trail requests last →
      last.streams = requests.foldl Request.serve machine.streams ∧
      requests.count .flush =
        trail.countP (·.command? = some (.op .input)) + acts.countP Act.isCall ∧
      last.store.sink.flushes = machine.store.sink.flushes + requests.count .flush := by
  refine ⟨?_, ?_, ?_⟩
  · intro machine
    constructor
    · intro hinput
      exact requests_of_isReading reg (decide_eq_true hinput)
    · intro hother
      exact requests_of_not_isReading (decide_eq_false hother)
  · intro fuel key machine result last h
    obtain ⟨own, ending, hown, hrest⟩ := exists_unflushed h
    exact ⟨own, ending, hown, streams_unflushed hown, hrest⟩
  · intro machine acts trail requests last h
    refine ⟨h.streams_eq, h.count_flush, ?_⟩
    have hflushes := Stream.flushes_foldl_serve machine.streams requests
    rwa [← h.streams_eq] at hflushes

end

def parrotBox : Codebox := ⟨"", 1, 0, [['i'], ['o'], ['@']], ⟨"t", 1⟩⟩

def parrot : Registry := .ofList [parrotBox]

def hampered : Machine :=
  start [] [] (.ofBytes [0x41, 0x42]) { Stream.Sink.unlimited with refused := [1, 5] } (.start .warn)

theorem flushes_are_disciplined_hampered :
    (∃ after, step parrot (hampered.entered .main parrotBox) =
        (.failed (.stream ⟨.other, "flush refused"⟩), after) ∧
      after.store.input = hampered.store.input) ∧
    (∃ last, run parrot 9 .main hampered =
      some (.error (.stream ⟨.other, "flush refused"⟩), last)) ∧
    ∃ trail requests last,
      Session parrot hampered [.call .main, .step, .call (.command 'z'), .call .main] trail requests
        last ∧
      requests = [.flush, .flush, .flush, .flush, .read, .write "A", .flush] ∧
      last.store.sink.flushes = 5 := by
  obtain ⟨hsteps, hcalls, hsessions⟩ := flushes_are_disciplined parrot
  refine ⟨?_, ?_, ?_⟩
  · obtain ⟨hinput, -⟩ := hsteps (hampered.entered .main parrotBox)
    rcases hinput rfl with ⟨hok, -⟩ | ⟨error, after, herror, -, hstep, hstore⟩
    · cases hok
    · cases herror
      exact ⟨after, hstep, by rw [hstore]; rfl⟩
  · obtain ⟨result, last, hrun⟩ :
        ∃ result last, run parrot 9 .main hampered = some (result, last) := ⟨_, _, rfl⟩
    obtain ⟨own, ending, hown, -, -, herror, -⟩ := hcalls 9 .main hampered result last hrun
    cases hown
    rw [herror _ rfl] at hrun
    exact ⟨last, hrun⟩
  · obtain ⟨trail, requests, last, hsession, hreads, hrequests⟩ : ∃ trail requests last,
        Session parrot hampered [.call .main, .step, .call (.command 'z'), .call .main] trail
          requests last ∧
        trail.countP (·.command? = some (.op .input)) = 2 ∧
        requests = [.flush, .flush, .flush, .flush, .read, .write "A", .flush] := by
      have hfirst := Session.called .start (show run parrot 9 .main hampered = some (_, _) from rfl)
      have hmissed := hfirst.stepped.called
        (show run parrot 9 (.command 'z') _ = some (_, _) from rfl)
      have hlast := hmissed.called (show run parrot 9 .main _ = some (_, _) from rfl)
      exact ⟨_, _, _, hlast, rfl, rfl⟩
    obtain ⟨-, hcount, hflushes⟩ := hsessions _ _ _ _ _ hsession
    refine ⟨trail, requests, last, hsession, hrequests, ?_⟩
    rw [hflushes, hcount, hreads]
    rfl

end Machine

end Gridwalk
