import Gridwalk.Proofs.BoundedSinks
import Gridwalk.Proofs.Flushes
import Gridwalk.Proofs.Reading

/-!
# Output reads back

Output commands write characters and dumps write texts, so all that a run writes is a text in UTF-8,
however the run ends. An output command succeeds exactly for the values that are characters. If a
run makes no dump, its output can be read with `readChar`: the characters are the values that the
output commands took, one for one (`output_reads_back`).

`Machine.told?` is the value that a step takes from the data stack and writes. Without dumps a step
asks for nothing else to be written (`chars_requests`).
-/

namespace Gridwalk

open Gridwalk.Stream (Talk Request Script)

-- ---------------------------------------------------------------------------
-- Texts and characters
-- ---------------------------------------------------------------------------

theorem Utf8.decodeText?_flatMap_encode (chars : List Char) :
    decodeText? (chars.flatMap encode) = some (String.ofList chars) := by
  have hbytes : (chars.flatMap encode).toByteArray = (String.ofList chars).toByteArray :=
    String.toByteArray_ofList.symm
  simp only [decodeText?, String.fromUTF8?, hbytes, (String.ofList chars).isValidUTF8,
    ↓reduceDIte]
  rfl

/-- The value is the code point of a character: none of the range of surrogates is. -/
def Word.IsCodePoint (w : Int64) : Prop :=
  (0 ≤ w.toInt ∧ w.toInt ≤ 0x10FFFF) ∧ ¬ (0xD800 ≤ w.toInt ∧ w.toInt ≤ 0xDFFF)

theorem Word.isCodePoint_iff {w : Int64} : IsCodePoint w ↔ ∃ c, toChar? w = some c := by
  unfold IsCodePoint toChar?
  cases w.toInt with
  | negSucc n =>
    simp only [reduceCtorEq, exists_const, iff_false]
    omega
  | ofNat n =>
    simp only [Int.ofNat_eq_natCast, Nat.isValidChar]
    split
    next hv =>
      simp only [Option.some.injEq, exists_eq', iff_true]
      omega
    next hv =>
      simp only [reduceCtorEq, exists_const, iff_false]
      omega

namespace Stream

def Request.chars : Request → List Char
  | .write text => text.toList
  | .flush | .read => []

theorem Request.written_serve {streams : Script × Sink} (hs : streams.2.limit = none)
    (request : Request) :
    (request.serve streams).2.written.toList =
      streams.2.written.toList ++ request.chars.flatMap Utf8.encode := by
  cases request with
  | flush => simp [serve, chars]
  | read => simp [serve, chars]
  | write text =>
    simp [serve, chars, Sink.writeText, Sink.write_of_limit_eq_none hs, Utf8.encodeText]

theorem written_foldl_serve (streams : Script × Sink) (hs : streams.2.limit = none)
    (requests : List Request) :
    (requests.foldl Request.serve streams).2.written.toList =
      streams.2.written.toList ++ (requests.flatMap Request.chars).flatMap Utf8.encode := by
  induction requests generalizing streams with
  | nil => simp
  | cons request requests ih =>
    have hgrows : streams.2.Grows (request.serve streams).2 :=
      Sink.grows_foldl_serve streams [request]
    rw [List.foldl_cons, ih _ (hgrows.limit.trans hs), request.written_serve hs]
    simp

end Stream

-- ---------------------------------------------------------------------------
-- Steps
-- ---------------------------------------------------------------------------

namespace Machine

/-- The value that the next step takes and writes: there is one if it carries out an output command
that succeeds. -/
def told? (reg : Registry) (machine : Machine) : Option Int64 :=
  if machine.command? = some (.op .output) ∧ (step reg machine).1 = .running then
    machine.store.data.head?
  else none

section
variable {reg : Registry} {machine last now : Machine} {fuel : Nat} {key : Key}
  {result : Except RunError Unit}

theorem step_running_iff {frame : Frame} {callers : List Frame} {c : Char} {op : Op}
    (hf : machine.frames = frame :: callers) (hout : frame.inString = false)
    (hc : frame.current? = some c) (hd : Command.decode c = .op op) :
    (step reg machine).1 = .running ↔ (op.run frame machine.store).1 = .ok () := by
  simp only [step, hf, hc, execute_eq, Frame.effect, hout, hd, Bool.false_eq_true, ↓reduceIte]
  rcases op.run frame machine.store with ⟨_ | _, after⟩ <;> simp

/-- An output command takes a value. If the value is a character, the step writes it and goes on;
otherwise the step fails and writes nothing. -/
theorem step_output (reg : Registry) (h : machine.command? = some (.op .output))
    (hs : machine.store.sink.limit = none) :
    (∃ c data, machine.store.data = Word.ofChar c :: data ∧ (step reg machine).1 = .running ∧
      machine.requests = [.write c.toString]) ∨
    ((∀ c data, machine.store.data ≠ Word.ofChar c :: data) ∧ (step reg machine).1 ≠ .running ∧
      machine.requests = []) := by
  obtain ⟨frame, callers, c, hf, hout, hc, hd, hrequests⟩ := requests_of_command h
  have hruns : (step reg machine).1 = .running ↔ _ := step_running_iff hf hout hc hd
  rw [hrequests, Ne, hruns]
  cases hdata : machine.store.data with
  | nil => exact .inr ⟨nofun, by simp [Op.run, Store.take, hdata], rfl⟩
  | cons a data =>
    cases ha : Word.toChar? a with
    | none =>
      refine .inr ⟨?_, ?_, by simp [Op.talk, ha, Talk.requests]⟩
      · rintro c' data' ⟨⟩
        simp at ha
      · simp [Op.run, Store.take, hdata, ha]
    | some c' =>
      obtain rfl := Word.toChar?_eq_some_iff.1 ha
      refine .inl ⟨c', data, rfl, ?_, by simp [Op.talk, Op.tell, Talk.requests]⟩
      simp only [Op.run, Store.take, hdata, ha, Store.write, Stream.Sink.writeText,
        Stream.Sink.write_of_limit_eq_none hs]

theorem step_output_iff (h : machine.command? = some (.op .output))
    (hs : machine.store.sink.limit = none) :
    (step reg machine).1 = .running ↔
      ∃ v data, machine.store.data = v :: data ∧ Word.IsCodePoint v := by
  simp only [Word.isCodePoint_iff, Word.toChar?_eq_some_iff]
  rcases step_output reg h hs with ⟨c, data, hdata, hruns, -⟩ | ⟨hdata, hstops, -⟩
  · exact ⟨fun _ => ⟨_, data, hdata, c, rfl⟩, fun _ => hruns⟩
  · constructor
    · exact fun hruns => absurd hruns hstops
    · rintro ⟨v, data, hv, c, rfl⟩
      exact absurd hv (hdata c data)

theorem chars_requests (reg : Registry) (hs : machine.store.sink.limit = none)
    (hdump : machine.command? ≠ some (.op .debug)) :
    (machine.requests.flatMap Request.chars).map Word.ofChar = (machine.told? reg).toList := by
  by_cases hout : machine.command? = some (.op .output)
  · rcases step_output reg hout hs with ⟨c, data, hdata, hruns, hrequests⟩ | ⟨-, hstops, hrequests⟩
    · simp [told?, hout, hruns, hdata, hrequests, Request.chars]
    · simp [told?, hstops, hrequests]
  · have hnone : machine.told? reg = none := by simp [told?, hout]
    rw [hnone]
    by_cases hop : ∃ op, machine.command? = some (.op op)
    · obtain ⟨op, hop⟩ := hop
      obtain ⟨frame, callers, c, -, -, -, -, hrequests⟩ := requests_of_command hop
      rw [hrequests]
      cases op with
      | output => exact absurd hop hout
      | debug => exact absurd hop hdump
      | input =>
        rcases Op.requests_input frame machine.store.data machine.store.velocity
          machine.streams with ⟨-, n, hn⟩ | ⟨-, -, hn⟩
        · simp [hn, Request.chars]
        · simp [hn, Request.chars]
      | _ => simp [Op.talk, Talk.requests]
    · simp [requests_of_no_command fun op he => hop ⟨op, he⟩]

-- ---------------------------------------------------------------------------
-- Runs
-- ---------------------------------------------------------------------------

def told (reg : Registry) (fuel : Nat) (key : Key) (machine : Machine) : List Int64 :=
  (runTrail reg fuel key machine).filterMap (told? reg)

theorem commands_eq_filterMap (reg : Registry) (fuel : Nat) (machine : Machine) :
    commands reg fuel machine = (trail reg fuel machine).filterMap command? := by
  induction fuel generalizing machine with
  | zero => rfl
  | succ fuel ih =>
    simp only [commands, trail]
    rcases step reg machine with ⟨_ | _ | _, next⟩
    all_goals cases hc : machine.command? <;> simp [hc, ih]

theorem runCommands_eq_filterMap (reg : Registry) (fuel : Nat) (key : Key) (machine : Machine) :
    runCommands reg fuel key machine = (runTrail reg fuel key machine).filterMap command? := by
  unfold runCommands runTrail
  cases reg.get? key with
  | none => rfl
  | some codebox => exact commands_eq_filterMap ..

theorem limit_of_mem_trail (h : now ∈ trail reg fuel machine)
    (hs : machine.store.sink.limit = none) : now.store.sink.limit = none := by
  induction fuel generalizing machine with
  | zero => cases h
  | succ fuel ih =>
    have hnext := (grows_step reg machine).limit.trans hs
    simp only [trail] at h
    rcases List.mem_cons.1 h with rfl | h
    · exact hs
    · split at h
      next next hstep =>
        rw [hstep] at hnext
        exact ih h hnext
      next => cases h

theorem limit_of_mem_runTrail (h : now ∈ runTrail reg fuel key machine)
    (hs : machine.store.sink.limit = none) : now.store.sink.limit = none := by
  unfold runTrail at h
  split at h
  · cases h
  · exact limit_of_mem_trail h hs

theorem written_run (h : run reg fuel key machine = some (result, last))
    (hs : machine.store.sink.limit = none) :
    last.store.sink.written.toList = machine.store.sink.written.toList ++
      ((runTrail reg fuel key machine).flatMap fun now =>
        now.requests.flatMap Request.chars).flatMap Utf8.encode := by
  obtain ⟨own, ending, hown, hstore, -⟩ := exists_unflushed h
  have hstreams := congrArg (fun streams => streams.2.written.toList) (streams_unflushed hown)
  have hwritten := Stream.written_foldl_serve machine.streams hs
    ((runTrail reg fuel key machine).flatMap requests)
  rw [hstore, ← List.flatMap_assoc, ← show _ = machine.store.sink.written.toList ++ _ from hwritten,
    ← hstreams]
  simp [streams, Store.streams]

theorem map_ofChar_flatMap_requests (reg : Registry) (trail : List Machine)
    (hs : ∀ now ∈ trail, now.store.sink.limit = none)
    (hdump : ∀ now ∈ trail, now.command? ≠ some (.op .debug)) :
    (trail.flatMap fun now => now.requests.flatMap Request.chars).map Word.ofChar =
      trail.filterMap (told? reg) := by
  induction trail with
  | nil => rfl
  | cons now trail ih =>
    simp only [List.forall_mem_cons] at hs hdump
    rw [List.flatMap_cons, List.map_append, ih hs.2 hdump.2, chars_requests reg hs.1 hdump.1]
    cases hv : now.told? reg <;> simp [hv]

/-- Let a call on a machine whose sink has no limit end, with or without an error. The bytes that it
has written are a text in UTF-8. Each of its output commands succeeds if and only if the value that
it takes is a code point. If no dump was made, then reading the bytes, in whatever chunks they come,
gives the values that output commands have taken and written, in their order, and then the end of
the input. -/
theorem output_reads_back (h : run reg fuel key machine = some (result, last))
    (hs : machine.store.sink.limit = none) :
    ∃ bytes, last.store.sink.written.toList = machine.store.sink.written.toList ++ bytes ∧
      (∃ text, Utf8.decodeText? bytes = some text) ∧
      (∀ now ∈ runTrail reg fuel key machine, now.command? = some (.op .output) →
        ((step reg now).1 = .running ↔ ∃ v data, now.store.data = v :: data ∧
          (0 ≤ v.toInt ∧ v.toInt ≤ 0x10FFFF) ∧ ¬ (0xD800 ≤ v.toInt ∧ v.toInt ≤ 0xDFFF))) ∧
      (.op .debug ∉ runCommands reg fuel key machine →
        ∀ script : Script, script.Steady → script.bytes = bytes →
          (∀ j (hj : j < (told reg fuel key machine).length),
            ∃ c, (script.afterReads j).readChar.1 = .ok (some c) ∧
              Word.ofChar c = (told reg fuel key machine)[j]) ∧
          (script.afterReads (told reg fuel key machine).length).readChar.1 = .ok none) := by
  have hlimit : ∀ now ∈ runTrail reg fuel key machine, now.store.sink.limit = none :=
    fun now hnow => limit_of_mem_runTrail hnow hs
  refine ⟨_, written_run h hs, ⟨_, Utf8.decodeText?_flatMap_encode _⟩, ?_, ?_⟩
  · intro now hnow hout
    exact step_output_iff hout (hlimit now hnow)
  · intro hdump script hsteady hbytes
    have hquiet : ∀ now ∈ runTrail reg fuel key machine, now.command? ≠ some (.op .debug) := by
      rintro now hnow hc
      rw [runCommands_eq_filterMap] at hdump
      exact hdump (List.mem_filterMap.2 ⟨now, hnow, hc⟩)
    have htold := map_ofChar_flatMap_requests reg _ hlimit hquiet
    rw [told, ← htold]
    generalize (runTrail reg fuel key machine).flatMap _ = chars at hbytes ⊢
    obtain ⟨hreads, hleaves⟩ := Script.readChar_text hsteady
      (show script.bytes = chars.flatMap Utf8.encode ++ [] by simpa using hbytes)
    constructor
    · intro j hj
      have hj' : j < chars.length := by simpa using hj
      exact ⟨chars[j], hreads j hj', by simp⟩
    · obtain ⟨hsteady', hleft⟩ := hleaves chars.length (Nat.le_refl _)
      rw [List.length_map, Script.readChar_of_bytes_nil hsteady' (by simpa using hleft)]

end

def reciter : Registry := .ofList
  [⟨"", 1, 0, [['o'], ['f'], ['o'], ['@']], ⟨"t", 1⟩⟩, ⟨"f", 1, 0, [['o'], ['@']], ⟨"t", 9⟩⟩]

def reciting : Machine := start [0x1F600, 0xE9, 0xD800] [] [] .unlimited (.start .warn)

theorem output_reads_back_reciting :
    ∃ last, run reciter 9 .main reciting = some (.error (.invalidCharacter 0xD800 .main), last) ∧
      last.store.sink.written.toList = [0xF0, 0x9F, 0x98, 0x80, 0xC3, 0xA9] ∧
      told reciter 9 .main reciting = [0x1F600, 0xE9] ∧
      .op .debug ∉ runCommands reciter 9 .main reciting ∧
      (∃ c, (Script.ofBytes last.store.sink.written.toList).readChar.1 = .ok (some c) ∧
        Word.ofChar c = 0x1F600) ∧
      ((Script.ofBytes last.store.sink.written.toList).afterReads 2).readChar.1 = .ok none := by
  obtain ⟨last, hrun, hlast⟩ : ∃ last, run reciter 9 .main reciting =
      some (.error (.invalidCharacter 0xD800 .main), last) ∧
      last.store.sink.written.toList = [0xF0, 0x9F, 0x98, 0x80, 0xC3, 0xA9] := ⟨_, rfl, rfl⟩
  have htold : told reciter 9 .main reciting = [0x1F600, 0xE9] := rfl
  have hquiet : .op .debug ∉ runCommands reciter 9 .main reciting := by decide
  obtain ⟨bytes, hwritten, -, -, hreads⟩ := output_reads_back hrun rfl
  obtain ⟨hvalues, hend⟩ := hreads hquiet (.ofBytes last.store.sink.written.toList)
    (by simp [Script.ofBytes, Script.Steady, Stream.Piece.isSteady])
    (by rw [hwritten]; simp [Script.ofBytes, Script.bytes, reciting, start, Stream.Sink.unlimited])
  exact ⟨last, hrun, hlast, htold, hquiet, hvalues 0 (by decide), hend⟩

end Machine

end Gridwalk
