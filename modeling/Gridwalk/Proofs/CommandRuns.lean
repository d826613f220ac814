import Gridwalk.CommandLine.Report
import Gridwalk.FileTree
import Gridwalk.Proofs.ErrorReports
import Gridwalk.Proofs.Logging
import Gridwalk.Proofs.ReadingBack

/-!
# The command and the library

The command does not run programs with `Program.run`: it loads and runs by itself, with a record of
its own in between. All the same it does what `Program.run` does, whatever is asked of it about
levels, colours and excerpts (`command_agrees_with_program`): standard output has the output, the
exit status tells whether there was an error, and standard error says which, after a line for each
record.

Records are compared with `load_related` and `run_related`: what both note stays the same on both
sides, and `recordsBut` leaves out what only one of them notes. The command holds output back in a
buffer. Every run ends with a flush, also one that fails, so nothing is left in the buffer
(`foldl_serve_flush`).
-/

namespace Gridwalk

open Log (Journal Level Record KeptBy)
open Gridwalk.Stream (Request)

-- ---------------------------------------------------------------------------
-- Buffers
-- ---------------------------------------------------------------------------

namespace Stream

/-- A writer between a program and a sink: what it has passed on, and what it holds back. -/
structure Buffer where
  passed : List UInt8
  held : List UInt8
  deriving DecidableEq, Repr

namespace Buffer

def empty : Buffer := ⟨[], []⟩

/-- Bytes that fit are held back. Otherwise those before them are passed on first, and what is as
large as the buffer is not held back at all. -/
def accept (capacity : Nat) (buffer : Buffer) (bytes : List UInt8) : Buffer :=
  if capacity ≤ bytes.length then ⟨buffer.passed ++ buffer.held ++ bytes, []⟩
  else if buffer.held.length + bytes.length ≤ capacity then ⟨buffer.passed, buffer.held ++ bytes⟩
  else ⟨buffer.passed ++ buffer.held, bytes⟩

def serve (capacity : Nat) (buffer : Buffer) : Request → Buffer
  | .read => buffer
  | .flush => ⟨buffer.passed ++ buffer.held, []⟩
  | .write text => buffer.accept capacity (Utf8.encodeText text)

theorem all_accept (capacity : Nat) (buffer : Buffer) (bytes : List UInt8) :
    (buffer.accept capacity bytes).passed ++ (buffer.accept capacity bytes).held =
      buffer.passed ++ buffer.held ++ bytes := by
  unfold accept
  by_cases hlarge : capacity ≤ bytes.length
  · simp [hlarge]
  · by_cases hfits : buffer.held.length + bytes.length ≤ capacity
    · simp [hlarge, hfits]
    · simp [hlarge, hfits]

theorem all_serve (capacity : Nat) (buffer : Buffer) (request : Request) :
    (buffer.serve capacity request).passed ++ (buffer.serve capacity request).held =
      buffer.passed ++ buffer.held ++ request.chars.flatMap Utf8.encode := by
  cases request with
  | read => simp [serve, Request.chars]
  | flush => simp [serve, Request.chars]
  | write text => exact all_accept capacity buffer _

theorem all_foldl_serve (capacity : Nat) (buffer : Buffer) (requests : List Request) :
    (requests.foldl (serve capacity) buffer).passed ++
        (requests.foldl (serve capacity) buffer).held =
      buffer.passed ++ buffer.held ++ (requests.flatMap Request.chars).flatMap Utf8.encode := by
  induction requests generalizing buffer with
  | nil => simp
  | cons request requests ih =>
    rw [List.foldl_cons, ih, all_serve]
    simp

theorem foldl_serve_flush (capacity : Nat) (requests : List Request) :
    (requests ++ [Request.flush]).foldl (serve capacity) empty =
      ⟨(requests.flatMap Request.chars).flatMap Utf8.encode, []⟩ := by
  have hall := all_foldl_serve capacity empty requests
  rw [List.foldl_append]
  simp only [List.foldl_cons, List.foldl_nil, serve, hall]
  rfl

end Buffer

end Stream

-- ---------------------------------------------------------------------------
-- Programs
-- ---------------------------------------------------------------------------

namespace Program

/-- What the run of a loaded program asks of the streams: what its steps ask for, and a flush at
the end. -/
def requests (reg : Registry) (fuel : Nat) (stdin : Stream.Script) (journal : Journal) :
    List Request :=
  (Machine.runTrail reg fuel .main (.start [] [] stdin .unlimited journal)).flatMap
    Machine.requests ++ [.flush]

structure SameRun (R : Journal → Journal → Prop) (execution other : Execution) : Prop where
  result : execution.result = other.result
  sink : execution.sink = other.sink
  journal : R execution.journal other.journal

structure SameEnding (execution other : Execution) : Prop where
  sink : execution.sink = other.sink
  result : execution.result = .ok () ↔ other.result = .ok ()

section
variable {R : Journal → Journal → Prop} {journal other : Journal}

theorem runMain_related (hrun : KeptBy Machine.target R) (h : R journal other) (reg : Registry)
    (fuel : Nat) (stdin : Stream.Script) (sink : Stream.Sink) :
    Option.Rel (SameRun R) (runMain reg fuel stdin sink journal)
      (runMain reg fuel stdin sink other) := by
  have hstart : Machine.Shadows R (.start [] [] stdin sink journal)
      (.start [] [] stdin sink other) := ⟨rfl, rfl, rfl, h⟩
  refine rel_map (Machine.run_related reg hrun hstart fuel .main) ?_
  rintro ⟨result, last⟩ ⟨_, last'⟩ - ⟨rfl, hstore, -, -, hjournal⟩
  exact ⟨rfl, congrArg Store.sink hstore, hjournal⟩

theorem runMain_ends (reg : Registry) (fuel : Nat) (stdin : Stream.Script) (sink : Stream.Sink)
    (journal other : Journal) :
    Option.Rel SameEnding (runMain reg fuel stdin sink journal)
      (runMain reg fuel stdin sink other) := by
  have hstart : Machine.Shadows (fun _ _ => True) (.start [] [] stdin sink journal)
      (.start [] [] stdin sink other) := ⟨rfl, rfl, rfl, trivial⟩
  refine rel_map (Machine.run_related reg (fun _ _ _ _ _ => trivial) hstart fuel .main) ?_
  rintro ⟨result, last⟩ ⟨_, last'⟩ - ⟨rfl, hstore, -⟩
  exact ⟨congrArg Store.sink hstore, Iff.rfl⟩

theorem buffered_runMain {reg : Registry} {fuel : Nat} {stdin : Stream.Script}
    {execution : Execution} (h : runMain reg fuel stdin .unlimited journal = some execution)
    (other : Journal) (capacity : Nat) :
    (requests reg fuel stdin other).foldl (Stream.Buffer.serve capacity) .empty =
      ⟨execution.sink.written.toList, []⟩ := by
  have hends := runMain_ends reg fuel stdin .unlimited journal other
  rw [h] at hends
  generalize hother : runMain reg fuel stdin .unlimited other = ran at hends
  cases hends with
  | @some _ otherwise hsame =>
    simp only [runMain, runOn, Option.map_eq_some_iff] at hother
    obtain ⟨⟨result, last⟩, hrun, rfl⟩ := hother
    have hwritten := Machine.written_run hrun rfl
    rw [requests, Stream.Buffer.foldl_serve_flush, hsame.sink]
    simp only [List.flatMap_assoc] at hwritten ⊢
    rw [hwritten]
    rfl

end

end Program

-- ---------------------------------------------------------------------------
-- Lines of a log
-- ---------------------------------------------------------------------------

namespace Log

def Record.line (colours : Bool) (record : Record) : String :=
  record.level.colour.paint colours ("[" ++ record.level.name ++ "]") ++
    " " ++ record.target ++ ": " ++ record.text ++ "\n"

theorem Record.render_append_newline (colours : Bool) (record : Record) :
    record.render colours ++ "\n" = record.line colours := by
  simp [render, Text.renderSpans, spans, Text.render_plain, Text.render_span, line,
    String.append_assoc]

theorem Journal.line_infix_render {journal : Journal} {record : Record}
    (h : record ∈ journal.records.toList) (colours : Bool) :
    (record.line colours).toList <:+: (journal.render colours).toList := by
  obtain ⟨before, after, hsplit⟩ := List.append_of_mem h
  simp only [render, Record.render_append_newline, hsplit, List.map_append, List.map_cons,
    String.join_append, String.join_cons, String.toList_append]
  exact List.infix_append' _ _ _

end Log

-- ---------------------------------------------------------------------------
-- Loads in any order
-- ---------------------------------------------------------------------------

namespace Loader

theorem load_ok_of_order {strict : Bool} {order : Enumeration} {source : Source} {unit : String}
    {journal : Journal} {reg : Registry}
    (h : (load ⟨strict, order⟩ source unit journal).1 = .ok reg) (order' : Enumeration)
    (journal' : Journal) : (load ⟨strict, order'⟩ source unit journal').1 = .ok reg := by
  cases strict with
  | false => rwa [load_lenient rfl] at h ⊢
  | true => rwa [load_strict_ok_iff rfl] at h ⊢

end Loader

-- ---------------------------------------------------------------------------
-- Settings
-- ---------------------------------------------------------------------------

namespace CommandLine

def levelOr (fallback : Level) (setting : Option String) : Level :=
  (setting.bind fun name => (Level.parse name).toOption).getD fallback

def chosenLevel (options : Options) (environment : Environment) : Level :=
  levelOr (levelOr .warn environment.logLevel) options.logLevel

def colours (options : Options) (environment : Environment) : Bool :=
  !options.noColour && !environment.noColour && environment.terminal

def settled (options : Options) (environment : Environment) : Log.Logger :=
  ⟨chosenLevel options environment, colours options environment⟩

def Report.about (options : Options) (environment : Environment) (source : Source)
    (execution : Execution) : Report where
  status := match execution.result with
    | .ok () => 0
    | .error _ => 1
  stdout := execution.sink.written.toList
  stderr := (configure environment).2 ++
    execution.journal.render (colours options environment) ++
    verdict options (settled options environment) source execution.result

theorem level_configure (environment : Environment) :
    (configure environment).1.level = levelOr .warn environment.logLevel := by
  obtain ⟨_ | name, noColour, terminal⟩ := environment
  · rfl
  · simp only [configure, Log.Logger.configure, Log.Logger.setLevel, levelOr, Option.bind_some]
    cases Level.parse name <;> rfl

theorem runOptions_eq {options : Options}
    (hlevel : ∀ name, options.logLevel = some name → ∃ level, Level.parse name = .ok level)
    (order : Enumeration) (environment : Environment) (source : String → Source)
    (stdin : Stream.Script) (fuel : Nat) :
    runOptions order options environment source stdin fuel =
      (runProgram order options (source options.extension) stdin fuel
        (.start (chosenLevel options environment))).map
          (.about options environment (source options.extension)) := by
  have hchosen : ∃ logger, logger.level = chosenLevel options environment ∧
      options.logLevel.elim (.ok (configure environment).1) (configure environment).1.setLevel =
        .ok logger := by
    cases hname : options.logLevel with
    | none =>
      refine ⟨(configure environment).1, ?_, rfl⟩
      simp [level_configure, chosenLevel, hname, levelOr]
    | some name =>
      obtain ⟨level, hparse⟩ := hlevel name hname
      refine ⟨{ (configure environment).1 with level }, ?_, ?_⟩
      · simp [chosenLevel, hname, levelOr, hparse, Except.toOption]
      · simp [Log.Logger.setLevel, hparse, Except.map]
  obtain ⟨⟨level, initially⟩, rfl, hchosen⟩ := hchosen
  simp only [runOptions, hchosen]
  rfl

-- ---------------------------------------------------------------------------
-- Records
-- ---------------------------------------------------------------------------

def recordsBut (own : String) (journal : Journal) : List Record :=
  journal.records.toList.filter (·.target ≠ own)

/-- The journals of the command and of `Program.run` differ only in what each notes of itself. -/
structure Kindred (journal other : Journal) : Prop where
  level : journal.level = other.level
  records : recordsBut target journal = recordsBut Program.target other

section
variable {journal other : Journal} {own origin : String}

theorem recordsBut_note_self (level : Level) (text : Unit → String) :
    recordsBut own (journal.note level own text) = recordsBut own journal := by
  unfold Journal.note
  split
  · simp [recordsBut]
  · rfl

theorem recordsBut_note (h : origin ≠ own) (level : Level) (text : Unit → String) :
    recordsBut own (journal.note level origin text) = recordsBut own journal ++
      if level ≤ journal.level then [⟨level, origin, text ()⟩] else [] := by
  unfold Journal.note
  split
  · simp [recordsBut, h]
  · simp

theorem keptBy_kindred (h : origin ≠ target) (h' : origin ≠ Program.target) :
    KeptBy origin Kindred := by
  rintro journal other ⟨hlevel, hrecords⟩ level text
  refine ⟨by simpa using hlevel, ?_⟩
  rw [recordsBut_note h, recordsBut_note h', hrecords, hlevel]

theorem Kindred.note (h : Kindred journal other) (text text' : Unit → String) :
    Kindred (journal.note .debug target text) (other.note .debug Program.target text') := by
  refine ⟨by simpa using h.level, ?_⟩
  rw [recordsBut_note_self, recordsBut_note_self, h.records]

end

-- ---------------------------------------------------------------------------
-- Agreement with programs
-- ---------------------------------------------------------------------------

theorem runProgram_related (order : Enumeration) (options : Options) (source : Source)
    (stdin : Stream.Script) (fuel : Nat) {journal other : Journal} (h : Kindred journal other) :
    Option.Rel (Program.SameRun Kindred) (runProgram order options source stdin fuel journal)
      (Program.run ⟨options.strict, order⟩ source options.program fuel stdin .unlimited other) := by
  have hload := Loader.load_related ⟨options.strict, order⟩
    (keptBy_kindred (by decide) (by decide)) h source options.program
  simp only [runProgram, Program.run]
  generalize Loader.load _ source options.program journal = loaded at hload ⊢
  generalize Loader.load _ source options.program other = loaded' at hload ⊢
  obtain ⟨result, journal⟩ := loaded
  obtain ⟨_, other⟩ := loaded'
  obtain ⟨rfl, hloaded⟩ := hload
  cases result with
  | error error => exact .some ⟨rfl, rfl, hloaded⟩
  | ok reg =>
    exact Program.runMain_related (keptBy_kindred (by decide) (by decide)) (hloaded.note _ _)
      reg fuel stdin .unlimited

theorem runProgram_ends (order order' : Enumeration) (options : Options) (source : Source)
    (stdin : Stream.Script) (fuel : Nat) (journal other : Journal) :
    Option.Rel Program.SameEnding (runProgram order options source stdin fuel journal)
      (Program.run ⟨options.strict, order'⟩ source options.program fuel stdin .unlimited
        other) := by
  have hsame (reg : Registry) :
      (Loader.load ⟨options.strict, order⟩ source options.program journal).1 = .ok reg ↔
        (Loader.load ⟨options.strict, order'⟩ source options.program other).1 = .ok reg :=
    ⟨fun h => Loader.load_ok_of_order h _ _, fun h => Loader.load_ok_of_order h _ _⟩
  simp only [runProgram, Program.run]
  generalize Loader.load _ source options.program journal = loaded at hsame ⊢
  generalize Loader.load _ source options.program other = loaded' at hsame ⊢
  -- in another order a load may end with another error, but then with an error
  obtain ⟨error | reg, journal⟩ := loaded <;> obtain ⟨error' | reg', other⟩ := loaded'
  · exact .some ⟨rfl, by simp⟩
  · cases (hsame reg').2 rfl
  · cases (hsame reg).1 rfl
  · obtain rfl := Except.ok.inj ((hsame reg').2 rfl)
    exact Program.runMain_ends reg fuel stdin .unlimited _ _

-- ---------------------------------------------------------------------------
-- Excerpts
-- ---------------------------------------------------------------------------

/-- There is an excerpt to show with the error: one is asked for, and the error is that a text does
not load, at a place in a unit that can be read. -/
def Explains (options : Options) (source : Source) (error : ProgramError) (cause : LoadError)
    (text : String) : Prop :=
  options.explain = true ∧ error = .load cause ∧
    ∃ place, cause.location? = some place ∧ source.read place.unit = .ok text

section
variable {order : Enumeration} {options : Options} {source : Source} {stdin : Stream.Script}
  {fuel : Nat} {journal : Journal} {execution : Execution}

theorem load_of_runProgram {cause : LoadError}
    (h : runProgram order options source stdin fuel journal = some execution)
    (he : execution.result = .error (.load cause)) :
    (Loader.load ⟨options.strict, order⟩ source options.program journal).1 = .error cause := by
  simp only [runProgram] at h
  split at h
  next error _ hload =>
    cases h
    cases he
    exact congrArg Prod.fst hload
  next =>
    simp only [Program.runMain, Option.map_eq_some_iff] at h
    obtain ⟨⟨_ | _, last⟩, -, rfl⟩ := h <;> nomatch he

theorem runMain_of_runProgram {order' : Enumeration} {journal' : Journal} {reg : Registry}
    (h : runProgram order options source stdin fuel journal = some execution)
    (hload : (Loader.load ⟨options.strict, order'⟩ source options.program journal').1 = .ok reg) :
    ∃ noted, Program.runMain reg fuel stdin .unlimited noted = some execution := by
  have hloaded := Loader.load_ok_of_order hload order journal
  simp only [runProgram] at h
  split at h
  next hfailed => nomatch (congrArg Prod.fst hfailed).symm.trans hloaded
  next hok =>
    obtain rfl := Except.ok.inj ((congrArg Prod.fst hok).symm.trans hloaded)
    exact ⟨_, h⟩

theorem readable_of_runProgram {cause : LoadError} {place : Location}
    (h : runProgram order options source stdin fuel journal = some execution)
    (he : execution.result = .error (.load cause)) (hp : cause.location? = some place) :
    ∃ text, source.read place.unit = .ok text := by
  obtain ⟨other, text, -, hread, before, line, rest, -, rfl, -⟩ :=
    Loader.blames_of_load (load_of_runProgram h he) hp
  exact ⟨text, hread⟩

theorem verdict_error {error : ProgramError}
    (h : runProgram order options source stdin fuel journal = some execution)
    (he : execution.result = .error error) (logger : Log.Logger) :
    ∃ excerpt, verdict options logger source execution.result =
        "Error: " ++ error.message ++ "\n" ++ excerpt ∧
      (∀ cause text, Explains options source error cause text →
        excerpt = Diagnostic.render logger.colours cause text) ∧
      ((∀ cause text, ¬ Explains options source error cause text) → excerpt = "") := by
  rw [he]
  refine ⟨_, rfl, ?_, ?_⟩
  · rintro cause text ⟨hasked, rfl, place, hp, hread⟩
    simp [hasked, explain, hp, hread]
  · intro hnone
    cases error with
    | run => split <;> trivial
    | load cause =>
      cases hasked : options.explain with
      | false => rfl
      | true =>
        cases hp : cause.location? with
        | none => simp [explain, hp]
        | some place =>
          -- this unit was read when it was loaded, so it does not fail to be read again
          obtain ⟨text, hread⟩ := readable_of_runProgram h he hp
          exact absurd ⟨hasked, rfl, place, hp, hread⟩ (hnone cause text)

end

-- ---------------------------------------------------------------------------
-- The command
-- ---------------------------------------------------------------------------

namespace Report

structure Shows (report : Report) (execution : Execution) : Prop where
  stdout : report.stdout = execution.sink.written.toList
  success : report.status = 0 ↔ execution.result = .ok ()
  failure : report.status = 1 ↔ execution.result ≠ .ok ()

/-- The text is a warning about the environment, if there is one, and the records of the command
after it. These are the records in `journal`, but for what each side notes of itself, and each of
them has its line. -/
structure Notes (options : Options) (environment : Environment) (journal : Journal)
    (text : String) : Prop where
  records : ∃ own, Kindred own journal ∧
    text = (configure environment).2 ++ own.render (colours options environment)
  lines : ∀ record ∈ recordsBut Program.target journal,
    (record.line (colours options environment)).toList <:+: text.toList

/-- Standard error has all records of the execution. After them it has the error, if there is one,
and nothing else but an excerpt. -/
structure Tells (options : Options) (environment : Environment) (source : Source)
    (report : Report) (execution : Execution) : Prop where
  success : execution.result = .ok () →
    Notes options environment execution.journal report.stderr
  failure : ∀ error, execution.result = .error error → ∃ noted excerpt,
    Notes options environment execution.journal noted ∧
    report.stderr = noted ++ ("Error: " ++ error.message ++ "\n" ++ excerpt) ∧
    (∀ cause text, Explains options source error cause text →
      excerpt = Diagnostic.render (colours options environment) cause text) ∧
    ((∀ cause text, ¬ Explains options source error cause text) → excerpt = "")

section
variable {options : Options} {environment : Environment} {source : Source}
  {execution other : Execution}

theorem shows_about (h : Program.SameEnding execution other) :
    Shows (about options environment source execution) other := by
  obtain ⟨hsink, hresult⟩ := h
  refine ⟨congrArg (·.written.toList) hsink, ?_, ?_⟩
  · rw [← hresult]
    unfold about
    cases execution.result <;> simp
  · rw [Ne, ← hresult]
    unfold about
    cases execution.result <;> simp

theorem notes_of_kindred {journal own : Journal} (h : Kindred own journal) :
    Notes options environment journal
      ((configure environment).2 ++ own.render (colours options environment)) := by
  refine ⟨⟨own, h, rfl⟩, ?_⟩
  intro record hrecord
  rw [← h.records] at hrecord
  have hown : record ∈ own.records.toList := List.mem_of_mem_filter hrecord
  rw [String.toList_append]
  exact (Log.Journal.line_infix_render hown _).trans (List.suffix_append _ _).isInfix

theorem tells_about {order : Enumeration} {stdin : Stream.Script} {fuel : Nat} {journal : Journal}
    (h : runProgram order options source stdin fuel journal = some execution)
    (hsame : Program.SameRun Kindred execution other) :
    Tells options environment source (about options environment source execution) other := by
  obtain ⟨hresult, -, hjournal⟩ := hsame
  have hnotes : Notes options environment other.journal ((configure environment).2 ++
      execution.journal.render (colours options environment)) := notes_of_kindred hjournal
  constructor
  · intro hok
    simpa [about, hresult.trans hok, verdict] using hnotes
  · intro error herror
    obtain ⟨excerpt, hverdict, hshown, hsilent⟩ :=
      verdict_error h (hresult.trans herror) (settled options environment)
    refine ⟨_, excerpt, hnotes, ?_, hshown, hsilent⟩
    rw [← hverdict]
    rfl

end

end Report

/-- With options that name a program and, if they name a level, one that exists, the command does
what `Program.run` does. The one ends when the other ends. Standard output has the same output, also
with imports in another order, and the status is 0 without an error and 1 with one. A buffer of any
size has passed on all output. Standard error has the records of `Program.run` at the chosen level,
each on a line, then the error, and the excerpt if the error can be explained. Arguments that say
these options come to the same. -/
theorem command_agrees_with_program (options : Options)
    (hlevel : ∀ name, options.logLevel = some name → ∃ level, Level.parse name = .ok level)
    (order : Enumeration) (environment : Environment) (source : String → Source)
    (stdin : Stream.Script) (fuel : Nat) :
    (∀ order' journal, Option.Rel Report.Shows
      (runOptions order options environment source stdin fuel)
      (Program.run ⟨options.strict, order'⟩ (source options.extension) options.program fuel stdin
        .unlimited journal)) ∧
    (∀ order' report reg journal,
      runOptions order options environment source stdin fuel = some report →
      (Loader.load ⟨options.strict, order'⟩ (source options.extension) options.program journal).1 =
        .ok reg →
      ∀ capacity, (Program.requests reg fuel stdin journal).foldl (Stream.Buffer.serve capacity)
        .empty = ⟨report.stdout, []⟩) ∧
    Option.Rel (Report.Tells options environment (source options.extension))
      (runOptions order options environment source stdin fuel)
      (Program.run ⟨options.strict, order⟩ (source options.extension) options.program fuel stdin
        .unlimited (.start (chosenLevel options environment))) ∧
    ∀ arguments, parse arguments = .ok (.run options) →
      runWith order arguments environment source stdin fuel =
        runOptions order options environment source stdin fuel := by
  rw [runOptions_eq hlevel]
  refine ⟨?_, ?_, ?_, ?_⟩
  · intro order' journal
    have hends := runProgram_ends order order' options (source options.extension) stdin fuel
      (.start (chosenLevel options environment)) journal
    simpa only [Option.map_id_apply] using
      rel_map (g := id) hends fun _ _ _ hsame => Report.shows_about hsame
  · intro order' report reg journal hreport hload capacity
    obtain ⟨execution, hrun, rfl⟩ := Option.map_eq_some_iff.1 hreport
    obtain ⟨noted, hmain⟩ := runMain_of_runProgram hrun hload
    exact Program.buffered_runMain hmain journal capacity
  · have hstart : Kindred (.start (chosenLevel options environment))
        (.start (chosenLevel options environment)) := ⟨rfl, rfl⟩
    have hruns := runProgram_related order options (source options.extension) stdin fuel hstart
    simpa only [Option.map_id_apply] using
      rel_map (g := id) hruns fun _ _ hrun hsame => Report.tells_about hrun hsame
  · intro arguments hparse
    simp only [runWith, hparse, runOptions_eq hlevel]

def ragged : FileTree := .ofFiles [("p.merry", Utf8.encodeText "###\n")]

theorem command_agrees_with_program_ragged :
    ∃ report noted, runWith .byKey ["--explain", "--log-level=debug", "p"]
        ⟨some "loud", true, false⟩ ragged.source [] 0 = some report ∧
      report.stdout = [] ∧ report.status = 1 ∧
      "[DEBUG] merry_syntax::loader: loading unit 'p'\n".toList <:+: noted.toList ∧
      report.stderr = noted ++ ("Error: Unterminated codebox: file p, line 1\n" ++
        Diagnostic.render false (.unterminated ⟨"p", 1⟩) "###\n") := by
  have hlevel : ∀ name, some "debug" = some name → ∃ level, Level.parse name = .ok level := by
    rintro name ⟨⟩
    exact ⟨.debug, rfl⟩
  obtain ⟨hshows, -, htells, hwith⟩ := command_agrees_with_program
    ⟨"p", false, true, false, some "debug", "merry"⟩ hlevel .byKey ⟨some "loud", true, false⟩
    ragged.source [] 0
  obtain ⟨_, hp⟩ := Source.exists_planWithin_eq (show (ragged.source "merry").enter [] "p" =
    .ok ⟨[], some (.unterminated ⟨"p", 1⟩)⟩ by rfl)
  obtain ⟨last, hrun, hlast⟩ : ∃ last,
      Program.run ⟨false, .byKey⟩ (ragged.source "merry") "p" 0 [] .unlimited (.start .debug) =
        some ⟨.error (.load (.unterminated ⟨"p", 1⟩)), .unlimited, last⟩ ∧
      ⟨.debug, "merry_syntax::loader", "loading unit 'p'"⟩ ∈ recordsBut Program.target last := by
    simp only [Program.run, Loader.load, Source.plan, hp, Source.expand_nil]
    exact ⟨_, rfl, .head _⟩
  rw [hwith _ rfl]
  replace hshows := hrun ▸ hshows .byKey (.start .debug)
  replace htells := hrun ▸ htells
  generalize runOptions .byKey _ _ ragged.source [] 0 = ran at hshows htells ⊢
  cases hshows with
  | some hshows =>
    cases htells with
    | some htells =>
      obtain ⟨noted, excerpt, hnotes, hstderr, hexcerpt, -⟩ := htells.failure _ rfl
      have hread : (ragged.source "merry").read "p" = .ok "###\n" := rfl
      obtain rfl := hexcerpt _ _ ⟨rfl, rfl, _, rfl, hread⟩
      have hline : (Record.line false ⟨.debug, "merry_syntax::loader", "loading unit 'p'"⟩).toList
        <:+: noted.toList := hnotes.lines _ hlast
      have htext : Record.line false ⟨.debug, "merry_syntax::loader", "loading unit 'p'"⟩ =
        "[DEBUG] merry_syntax::loader: loading unit 'p'\n" := by decide +kernel
      exact ⟨_, noted, rfl, hshows.stdout, hshows.failure.2 (by simp), htext ▸ hline, hstderr⟩

end CommandLine

end Gridwalk
