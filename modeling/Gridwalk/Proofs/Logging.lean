import Mathlib.Data.List.Forall2
import Gridwalk.Load
import Gridwalk.Proofs.Flushes

/-!
# Logging does not interfere

Loads and runs note in their journal what they do and never look at it. So two loads or two runs
that differ in their journals come to the same, and they note the same: every relation between
journals that noting a record on both sides keeps holds at the end if it holds at the start
(`load_related`, `run_related`). `KeptBy` names such relations.

One of them says that the one journal is at some level and has, of the records of the other one,
those that the level lets through. This is how levels differ, and in nothing else
(`logging_only_observes`).
-/

namespace Gridwalk

open Log (Journal Level Record)

-- ---------------------------------------------------------------------------
-- Relations between journals
-- ---------------------------------------------------------------------------

namespace Log

/-- Whatever `target` notes in two journals, they stay related. -/
def KeptBy (target : String) (R : Journal → Journal → Prop) : Prop :=
  ∀ ⦃journal other⦄, R journal other → ∀ level text,
    R (journal.note level target text) (other.note level target text)

def Related {α : Type} (R : Journal → Journal → Prop) (answer other : α × Journal) : Prop :=
  answer.1 = other.1 ∧ R answer.2 other.2

theorem Related.mk {α : Type} {R : Journal → Journal → Prop} {journal other : Journal}
    (h : R journal other) (value : α) : Related R (value, journal) (value, other) :=
  ⟨rfl, h⟩

/-- The journal is at `level`, the other one lets everything through, and of its records the journal
has those that `level` lets through. -/
structure Thinned (level : Level) (journal full : Journal) : Prop where
  thin : journal.level = level
  whole : full.level = .trace
  records : journal.records = full.records.filter (·.level ≤ level)

theorem Level.le_trace (level : Level) : level ≤ .trace := by
  cases level <;> decide

theorem thinned_start (level : Level) : Thinned level (.start level) (.start .trace) :=
  ⟨rfl, rfl, rfl⟩

theorem keptBy_thinned (level : Level) (target : String) : KeptBy target (Thinned level) := by
  rintro journal full ⟨hlevel, hfull, hrecords⟩ lvl text
  refine ⟨by simpa using hlevel, by simpa using hfull, ?_⟩
  have hnoted : (full.note lvl target text).records = full.records.push ⟨lvl, target, text ()⟩ := by
    simp [Journal.note, hfull, lvl.le_trace]
  rw [hnoted]
  by_cases hle : lvl ≤ level
  · simp [Journal.note, hlevel, hle, hrecords]
  · simp [Journal.note, hlevel, hle, hrecords]

end Log

-- ---------------------------------------------------------------------------
-- Loads
-- ---------------------------------------------------------------------------

open Log (KeptBy Related Thinned)

namespace Loader

section
variable {R : Journal → Journal → Prop} {journal other : Journal}

theorem register_related (loader : Loader) (hR : KeptBy target R) (h : R journal other)
    (box : Codebox) (reg : Registry) :
    Related R (loader.register box reg journal) (loader.register box reg other) := by
  unfold register
  cases reg.get? box.key with
  | none => exact .mk (hR h _ _) _
  | some old =>
    dsimp only
    split
    · exact .mk (hR h _ _) _
    · split
      · exact .mk (hR h _ _) _
      · exact .mk (hR (hR h _ _) _ _) _

theorem registerAll_related (loader : Loader) (hR : KeptBy target R) (h : R journal other)
    (boxes : List Codebox) (reg : Registry) :
    Related R (loader.registerAll boxes reg journal) (loader.registerAll boxes reg other) := by
  induction boxes generalizing reg journal other with
  | nil => exact ⟨rfl, h⟩
  | cons box boxes ih =>
    have hbox := register_related loader hR h box reg
    unfold registerAll
    generalize loader.register box reg journal = first at hbox ⊢
    generalize loader.register box reg other = second at hbox ⊢
    obtain ⟨result, journal⟩ := first
    obtain ⟨_, other⟩ := second
    obtain ⟨rfl, hnext⟩ := hbox
    cases result with
    | error error => exact ⟨rfl, hnext⟩
    | ok reg => exact ih hnext reg

theorem follow_related (loader : Loader) (hR : KeptBy target R) (h : R journal other) (plan : Plan)
    (sites : List Location) (reg : Registry) :
    Related R (loader.follow sites plan reg journal) (loader.follow sites plan reg other) := by
  induction plan generalizing sites reg journal other with
  | done => exact ⟨rfl, h⟩
  | fault error => exact ⟨rfl, h⟩
  | box box next ih =>
    have hbox := register_related loader hR h box reg
    unfold follow
    generalize loader.register box reg journal = first at hbox ⊢
    generalize loader.register box reg other = second at hbox ⊢
    obtain ⟨result, journal⟩ := first
    obtain ⟨_, other⟩ := second
    obtain ⟨rfl, hnext⟩ := hbox
    cases result with
    | error error => exact ⟨rfl, hnext⟩
    | ok reg => exact ih () hnext sites reg
  | stray place blank next ih =>
    unfold follow
    split
    · exact ⟨rfl, h⟩
    · exact ih () (hR h _ _) sites reg
  | imports place unit body next ihbody ihnext =>
    have hbody := ihbody () (hR h .debug fun _ =>
      s!"{place.unit}:{place.line}: importing '{unit}'") (place :: sites) ∅
    simp only [follow]
    generalize loader.follow (place :: sites) (body ()) ∅ _ = first at hbody ⊢
    generalize loader.follow (place :: sites) (body ()) ∅ _ = second at hbody ⊢
    obtain ⟨result, journal⟩ := first
    obtain ⟨_, other⟩ := second
    obtain ⟨rfl, hread⟩ := hbody
    cases result with
    | error error => exact ⟨rfl, hread⟩
    | ok imported =>
      have hall := registerAll_related loader hR hread
        (loader.order.list (place :: sites) imported) reg
      dsimp only
      generalize loader.registerAll _ reg journal = first at hall ⊢
      generalize loader.registerAll _ reg other = second at hall ⊢
      obtain ⟨result, journal⟩ := first
      obtain ⟨_, other⟩ := second
      obtain ⟨rfl, hnext⟩ := hall
      cases result with
      | error error => exact ⟨rfl, hnext⟩
      | ok reg => exact ihnext () hnext sites reg

theorem load_related (loader : Loader) (hR : KeptBy target R) (h : R journal other)
    (source : Source) (unit : String) :
    Related R (loader.load source unit journal) (loader.load source unit other) := by
  have hfollow := follow_related loader hR
    (hR h .debug fun _ => s!"loading unit '{unit}'") (source.plan unit) [] ∅
  unfold load
  dsimp only
  generalize loader.follow [] (source.plan unit) ∅ _ = first at hfollow ⊢
  generalize loader.follow [] (source.plan unit) ∅ _ = second at hfollow ⊢
  obtain ⟨result, journal⟩ := first
  obtain ⟨_, other⟩ := second
  obtain ⟨rfl, hlast⟩ := hfollow
  cases result with
  | error error => exact ⟨rfl, hlast⟩
  | ok reg => exact .mk (hR hlast _ _) _

end

end Loader

-- ---------------------------------------------------------------------------
-- Runs
-- ---------------------------------------------------------------------------

namespace Machine

structure Shadows (R : Journal → Journal → Prop) (machine other : Machine) : Prop where
  store : machine.store = other.store
  frames : machine.frames = other.frames
  steps : machine.steps = other.steps
  journal : R machine.journal other.journal

def Shadowed {α : Type} (R : Journal → Journal → Prop) (answer other : α × Machine) : Prop :=
  answer.1 = other.1 ∧ Shadows R answer.2 other.2

section
variable {R : Journal → Journal → Prop} {machine other : Machine} {frame : Frame} {c : Char}
  {key : Key}

theorem Shadows.exists_eq (h : Shadows R machine other) :
    ∃ journal, machine = { other with journal } ∧ R journal other.journal := by
  obtain ⟨store, frames, steps, journal⟩ := machine
  obtain ⟨rfl, rfl, rfl, hjournal⟩ := h
  exact ⟨journal, rfl, hjournal⟩

theorem call_shadowed (reg : Registry) (hR : KeptBy target R) (h : Shadows R machine other) :
    Shadowed R (call reg machine frame c) (call reg other frame c) := by
  obtain ⟨journal, rfl, hjournal⟩ := h.exists_eq
  unfold call
  cases reg.get? (.command c) with
  | none => exact ⟨rfl, rfl, rfl, rfl, hjournal⟩
  | some box =>
    refine ⟨rfl, rfl, rfl, rfl, ?_⟩
    dsimp only [note]
    exact hR hjournal _ _

theorem ret_shadowed (hR : KeptBy target R) (h : Shadows R machine other) :
    Shadowed R (machine.ret frame) (other.ret frame) := by
  obtain ⟨journal, rfl, hjournal⟩ := h.exists_eq
  obtain ⟨⟨data, velocity, input, sink⟩, frames, steps, journal'⟩ := other
  have hnoted := hR hjournal .debug fun _ => s!"{frame.key.text} returns"
  rcases frames with _ | ⟨caller, callers⟩
  · exact ⟨rfl, rfl, rfl, rfl, hnoted⟩
  · rcases velocity with _ | ⟨vy, _ | ⟨vx, rest⟩⟩ <;> exact ⟨rfl, rfl, rfl, rfl, hnoted⟩

theorem step_shadowed (reg : Registry) (hR : KeptBy target R) (h : Shadows R machine other) :
    Shadowed R (step reg machine) (step reg other) := by
  obtain ⟨journal, rfl, hjournal⟩ := h.exists_eq
  obtain ⟨store, frames, steps, journal'⟩ := other
  cases frames with
  | nil => exact ⟨rfl, rfl, rfl, rfl, hjournal⟩
  | cons frame callers =>
    cases hc : frame.current? with
    | none =>
      simp only [step, hc]
      exact ⟨rfl, rfl, rfl, rfl, hjournal⟩
    | some c =>
      have hcounted : Shadows R (counted ⟨store, callers, steps, journal⟩ frame c)
          (counted ⟨store, callers, steps, journal'⟩ frame c) := by
        refine ⟨rfl, rfl, rfl, ?_⟩
        dsimp only [counted, note]
        exact hR hjournal _ _
      simp only [step, hc, execute_eq]
      cases frame.effect c store with
      | moves next after => exact ⟨rfl, rfl, rfl, rfl, hcounted.journal⟩
      | fails error after => exact ⟨rfl, rfl, rfl, rfl, hcounted.journal⟩
      | calls d => exact call_shadowed reg hR hcounted
      | returns => exact ret_shadowed hR hcounted

theorem conclude_shadowed (hR : KeptBy target R) (h : Shadows R machine other)
    (result : Except RunError Unit) :
    Shadowed R (conclude key result machine) (conclude key result other) := by
  obtain ⟨journal, rfl, hjournal⟩ := h.exists_eq
  cases result with
  | error error | ok =>
    refine ⟨rfl, rfl, rfl, rfl, ?_⟩
    dsimp only [conclude, note]
    exact hR hjournal _ _

theorem run_related (reg : Registry) (hR : KeptBy target R) (h : Shadows R machine other)
    (fuel : Nat) (key : Key) :
    Option.Rel (Shadowed R) (run reg fuel key machine) (run reg fuel key other) := by
  cases hb : reg.get? key with
  | none =>
    rw [run_of_none hb, run_of_none hb]
    have hcleared : Shadows R { machine with frames := [] } { other with frames := [] } :=
      ⟨h.store, rfl, h.steps, h.journal⟩
    exact .some (conclude_shadowed hR hcleared _)
  | some codebox =>
    have hentered : Shadows R (machine.entered key codebox) (other.entered key codebox) := by
      refine ⟨h.store, rfl, h.steps, ?_⟩
      dsimp only [entered, note]
      exact hR h.journal _ _
    have hdriven := drive_lockstep (fun _ _ => step_shadowed reg hR) hentered fuel
    rw [run_of_some hb, run_of_some hb]
    refine rel_map hdriven ?_
    rintro ⟨result, last⟩ ⟨_, last'⟩ - ⟨rfl, hlast⟩
    exact conclude_shadowed hR hlast result

end

-- ---------------------------------------------------------------------------
-- Sessions
-- ---------------------------------------------------------------------------

def perform (reg : Registry) (fuel : Nat) (machine : Machine) : Act → Option (Outcome × Machine)
  | .step => some (step reg machine)
  | .call key => (run reg fuel key machine).map fun
    | (.ok (), last) => (.finished, last)
    | (.error error, last) => (.failed error, last)

/-- Acts in turn, whatever comes of each, up to a call that does not end with this fuel. -/
def performEach (reg : Registry) (fuel : Nat) : List Act → Machine → List (Outcome × Machine)
  | [], _ => []
  | act :: acts, machine =>
    match perform reg fuel machine act with
    | none => []
    | some (outcome, last) => (outcome, last) :: performEach reg fuel acts last

section
variable {R : Journal → Journal → Prop} {machine other : Machine}

theorem perform_related (reg : Registry) (hR : KeptBy target R) (h : Shadows R machine other)
    (fuel : Nat) (act : Act) :
    Option.Rel (Shadowed R) (perform reg fuel machine act) (perform reg fuel other act) := by
  cases act with
  | step => exact .some (step_shadowed reg hR h)
  | call key =>
    refine rel_map (run_related reg hR h fuel key) ?_
    rintro ⟨_ | _, last⟩ ⟨_, last'⟩ - ⟨rfl, hlast⟩
    · exact ⟨rfl, hlast⟩
    · exact ⟨rfl, hlast⟩

theorem performEach_related (reg : Registry) (hR : KeptBy target R) (h : Shadows R machine other)
    (fuel : Nat) (acts : List Act) :
    List.Forall₂ (Shadowed R) (performEach reg fuel acts machine)
      (performEach reg fuel acts other) := by
  induction acts generalizing machine other with
  | nil => exact .nil
  | cons act acts ih =>
    have hact := perform_related reg hR h fuel act
    simp only [performEach]
    generalize perform reg fuel machine act = performed at hact ⊢
    generalize perform reg fuel other act = performed' at hact ⊢
    cases hact with
    | none => exact .nil
    | some hsame => exact .cons hsame (ih hsame.2)

end

end Machine

structure Transcript where
  loaded : Except LoadError Registry
  /-- What each act came to, and the machine after it. -/
  answers : List (Outcome × Machine)
  /-- The journal at the end. -/
  journal : Journal

namespace Transcript

/-- All that can be seen but the journals: what was loaded, and after each act its outcome, the
stacks, the streams, the frames and the count of commands. -/
def seen (transcript : Transcript) :
    Except LoadError Registry × List (Outcome × Store × List Frame × Nat) :=
  (transcript.loaded, transcript.answers.map fun (outcome, machine) =>
    (outcome, machine.store, machine.frames, machine.steps))

def lastJournal (journal : Journal) : List (Outcome × Machine) → Journal
  | [] => journal
  | (_, machine) :: answers => lastJournal machine.journal answers

/-- Loads a unit and, if this succeeds, performs acts in turn on a machine that has not run. One
journal goes through all of it. -/
def record (loader : Loader) (source : Source) (unit : String) (fuel : Nat)
    (store : Store) (acts : List Machine.Act) (journal : Journal) : Transcript :=
  match loader.load source unit journal with
  | (.error error, journal) => ⟨.error error, [], journal⟩
  | (.ok reg, journal) =>
    let answers := Machine.performEach reg fuel acts ⟨store, [], 0, journal⟩
    ⟨.ok reg, answers, lastJournal journal answers⟩

section
variable {R : Journal → Journal → Prop}

theorem map_seen_of_shadowed {answers others : List (Outcome × Machine)}
    (h : List.Forall₂ (Machine.Shadowed R) answers others) :
    answers.map (fun (outcome, machine) =>
        (outcome, machine.store, machine.frames, machine.steps)) =
      others.map fun (outcome, machine) =>
        (outcome, machine.store, machine.frames, machine.steps) := by
  induction h with
  | nil => rfl
  | cons hsame _ ih =>
    obtain ⟨houtcome, hstore, hframes, hsteps, -⟩ := hsame
    simp only [List.map_cons, houtcome, hstore, hframes, hsteps, ih]

theorem lastJournal_of_shadowed {answers others : List (Outcome × Machine)}
    {journal other : Journal} (h : List.Forall₂ (Machine.Shadowed R) answers others)
    (hj : R journal other) :
    R (lastJournal journal answers) (lastJournal other others) := by
  induction h generalizing journal other with
  | nil => exact hj
  | cons hsame _ ih => exact ih hsame.2.journal

theorem record_related (hload : KeptBy Loader.target R) (hrun : KeptBy Machine.target R)
    {journal other : Journal} (h : R journal other) (loader : Loader) (source : Source)
    (unit : String) (fuel : Nat) (store : Store) (acts : List Machine.Act) :
    (record loader source unit fuel store acts journal).seen =
        (record loader source unit fuel store acts other).seen ∧
      R (record loader source unit fuel store acts journal).journal
        (record loader source unit fuel store acts other).journal := by
  have hloaded := Loader.load_related loader hload h source unit
  unfold record
  generalize loader.load source unit journal = first at hloaded ⊢
  generalize loader.load source unit other = second at hloaded ⊢
  obtain ⟨result, journal⟩ := first
  obtain ⟨_, other⟩ := second
  obtain ⟨rfl, hjournal⟩ := hloaded
  cases result with
  | error error => exact ⟨rfl, hjournal⟩
  | ok reg =>
    have hstart : Machine.Shadows R ⟨store, [], 0, journal⟩ ⟨store, [], 0, other⟩ :=
      ⟨rfl, rfl, rfl, hjournal⟩
    have hacts := Machine.performEach_related reg hrun hstart fuel acts
    exact ⟨congrArg (Except.ok reg, ·) (map_seen_of_shadowed hacts),
      lastJournal_of_shadowed hacts hjournal⟩

end

/-- Whatever is loaded and performed, the level of the journal makes no difference to anything else:
the load, the outcomes, stacks and streams, frames and counts are the same at every level. And the
records at a level are, in their order, those records at the level that lets everything through
which are at most at this level. -/
theorem logging_only_observes (loader : Loader) (source : Source) (unit : String) (fuel : Nat)
    (store : Store) (acts : List Machine.Act) :
    (∀ level level',
      (record loader source unit fuel store acts (.start level)).seen =
        (record loader source unit fuel store acts (.start level')).seen) ∧
    ∀ level,
      (record loader source unit fuel store acts (.start level)).journal.records =
        (record loader source unit fuel store acts (.start .trace)).journal.records.filter
          (·.level ≤ level) := by
  have hlevel (level : Level) := record_related (Log.keptBy_thinned level _)
    (Log.keptBy_thinned level _) (Log.thinned_start level) loader source unit fuel store acts
  refine ⟨?_, ?_⟩
  · intro level level'
    exact (hlevel level).1.trans (hlevel level').1.symm
  · intro level
    exact (hlevel level).2.records

end Transcript

end Gridwalk
