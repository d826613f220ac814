import Mathlib.Data.List.Forall2
import Gridwalk.Proofs.Flushes
import Gridwalk.Proofs.Grids

/-!
# Pointers with exact coordinates

A coordinate that would leave the range of words stops at the end of it. Nobody can tell: the
pointer was on the grid before, so it has gone beyond the far side of the grid, and there the frame
fails whether its coordinate is exact or not.

`Exact.step` is the machine with integers for coordinates, which never stop anywhere. Its runs end
like those of the machine with words (`saturation_is_invisible`). `Tracks` relates the two while
they run: a pointer with words is at the exact place, or both are off the grid. A caller waits on
the character that called, hence on the grid, so its pointer is exact when it moves on.
-/

namespace Gridwalk

open Log (Journal Level)

namespace Exact

-- ---------------------------------------------------------------------------
-- The machine with exact coordinates
-- ---------------------------------------------------------------------------

structure Frame where
  codebox : Codebox
  key : Key
  x : Int
  y : Int
  vx : Int64
  vy : Int64
  inString : Bool

namespace Frame

def enter (codebox : Codebox) (key : Key) : Frame := ⟨codebox, key, codebox.entry, 0, 0, 1, false⟩

def current? (frame : Frame) : Option Char := frame.codebox.cell? frame.x frame.y

def advance (frame : Frame) : Frame :=
  { frame with x := frame.x + frame.vx.toInt, y := frame.y + frame.vy.toInt }

def turn (frame : Frame) (vx vy : Int64) : Frame := { frame with vx, vy }

def site (frame : Frame) : Site :=
  if frame.key.isMain then .main else .codebox frame.codebox.name

def dump (frame : Frame) (store : Store) : String :=
  "! DEBUG !\n" ++
    s!"Codebox: {frame.codebox.name}\n" ++
    s!"Position: ({frame.x}, {frame.y})\n" ++
    s!"Velocity: ({frame.vx.toInt}, {frame.vy.toInt})\n" ++
    s!"Data stack: {Word.showAll store.data.reverse}\n" ++
    s!"Velocity stack: {Word.showAll store.velocity.reverse}\n"

/-- Only a dump looks at the frame, so the other commands may be given any. -/
def operate (frame : Frame) (store : Store) : Op → Except Fault Unit × Store
  | .debug => store.write (frame.dump store)
  | op => op.run (.enter frame.codebox frame.key) store

end Frame

structure Machine where
  store : Store
  frames : List Frame
  steps : Nat
  journal : Journal

namespace Machine

def note (machine : Machine) (level : Level) (text : Unit → String) : Machine :=
  { machine with journal := machine.journal.note level Gridwalk.Machine.target text }

def call (reg : Registry) (machine : Machine) (caller : Frame) (c : Char) : Outcome × Machine :=
  let velocity := caller.vy :: caller.vx :: machine.store.velocity
  let machine := { machine with store := { machine.store with velocity } }
  match reg.get? (.command c) with
  | none => (.failed (.commandNotFound c), machine)
  | some codebox =>
    let machine := machine.note .debug fun _ =>
      s!"{caller.key.text} calls {(Key.command c).text} ('{codebox.name}') " ++
        s!"at depth {machine.frames.length + 1}"
    (.running,
      { machine with frames := Frame.enter codebox (.command c) :: caller :: machine.frames })

def ret (machine : Machine) (frame : Frame) : Outcome × Machine :=
  let machine := machine.note .debug fun _ => s!"{frame.key.text} returns"
  match machine.frames with
  | [] => (.finished, machine)
  | caller :: callers =>
    match machine.store.velocity with
    | vy :: vx :: velocity =>
      (.running,
        { machine with
          store := { machine.store with velocity }
          frames := (caller.turn vx vy).advance :: callers })
    | _ =>
      (.failed (.velocityUnderflow (caller.current?.getD '\uFFFD') caller.site),
        { machine with store := { machine.store with velocity := [] } })

def execute (reg : Registry) (machine : Machine) (frame : Frame) (c : Char) : Outcome × Machine :=
  let machine := { machine with steps := machine.steps + 1 }
  let machine := machine.note .trace fun _ =>
    s!"{frame.key.text} ({frame.x}, {frame.y}) {Text.quoted c}"
  if frame.inString then
    if c = '"' then
      (.running,
        { machine with frames := { frame with inString := false }.advance :: machine.frames })
    else
      (.running,
        { machine with
          store := machine.store.push (Word.ofChar c)
          frames := frame.advance :: machine.frames })
  else
    match Command.decode c with
    | .op op =>
      match frame.operate machine.store op with
      | (.error fault, store) => (.failed (fault.raise c frame.site), { machine with store })
      | (.ok (), store) =>
        (.running, { machine with store, frames := frame.advance :: machine.frames })
    | .quote =>
      (.running,
        { machine with frames := { frame with inString := true }.advance :: machine.frames })
    | .ret => machine.ret frame
    | .call c => call reg machine frame c

def step (reg : Registry) (machine : Machine) : Outcome × Machine :=
  match machine.frames with
  | [] => (.finished, machine)
  | frame :: callers =>
    let machine := { machine with frames := callers }
    match frame.current? with
    | none => (.failed (.outOfBounds frame.site), machine)
    | some c => execute reg machine frame c

def drive (reg : Registry) : Nat → Machine → Option (Except RunError Unit × Machine)
  | 0, _ => none
  | fuel + 1, machine =>
    match step reg machine with
    | (.running, machine) => drive reg fuel machine
    | (.finished, machine) => some (.ok (), machine)
    | (.failed error, machine) => some (.error error, machine)

def conclude (key : Key) (result : Except RunError Unit) (machine : Machine) :
    Except RunError Unit × Machine :=
  let (flushed, sink) := machine.store.sink.flush
  let machine := { machine with store := { machine.store with sink } }
  match result with
  | .error error =>
    (.error error, machine.note .debug fun _ =>
      s!"{key.text} failed after {machine.steps} steps: {error.message}")
  | .ok () =>
    (flushed.mapError .stream, machine.note .info fun _ =>
      s!"{key.text} returned after {machine.steps} steps")

def entered (machine : Machine) (key : Key) (codebox : Codebox) : Machine :=
  { machine with frames := [Frame.enter codebox key] }.note .debug fun _ =>
    s!"entering {key.text} ('{codebox.name}')"

def run (reg : Registry) (fuel : Nat) (key : Key) (machine : Machine) :
    Option (Except RunError Unit × Machine) :=
  match reg.get? key with
  | none =>
    some (conclude key (.error (Gridwalk.Machine.missing key)) { machine with frames := [] })
  | some codebox =>
    (drive reg fuel (machine.entered key codebox)).map fun (result, machine) =>
      conclude key result machine

def trail (reg : Registry) : Nat → Machine → List Machine
  | 0, _ => []
  | fuel + 1, machine =>
    machine ::
      match step reg machine with
      | (.running, next) => trail reg fuel next
      | _ => []

def runTrail (reg : Registry) (fuel : Nat) (key : Key) (machine : Machine) : List Machine :=
  match reg.get? key with
  | none => []
  | some codebox => trail reg fuel (machine.entered key codebox)

end Machine

end Exact

-- ---------------------------------------------------------------------------
-- Frames
-- ---------------------------------------------------------------------------

/-- The sides of the grid are at most `2 ^ 63 - 1` long, and the entry is a number that a machine of
64 bits can hold. -/
structure Codebox.Addressable (box : Codebox) : Prop where
  entry : box.entry < 0x10000000000000000
  height : box.height ≤ 0x7FFFFFFFFFFFFFFF
  width : ∀ row ∈ box.rows, row.length ≤ 0x7FFFFFFFFFFFFFFF

instance (box : Codebox) : Decidable box.Addressable :=
  decidable_of_iff
    (box.entry < 0x10000000000000000 ∧ box.height ≤ 0x7FFFFFFFFFFFFFFF ∧
      ∀ row ∈ box.rows, row.length ≤ 0x7FFFFFFFFFFFFFFF)
    ⟨fun ⟨entry, height, width⟩ => ⟨entry, height, width⟩,
      fun ⟨entry, height, width⟩ => ⟨entry, height, width⟩⟩

theorem Codebox.Addressable.lt_of_cell? {box : Codebox} {x y : Int} {c : Char}
    (h : box.Addressable) (hc : box.cell? x y = some c) :
    (0 ≤ x ∧ x < 0x7FFFFFFFFFFFFFFF) ∧ 0 ≤ y ∧ y < 0x7FFFFFFFFFFFFFFF := by
  unfold Codebox.cell? at hc
  split at hc
  next x y =>
    obtain ⟨row, hrow, hx⟩ := Option.bind_eq_some_iff.1 hc
    obtain ⟨hx, -⟩ := List.getElem?_eq_some_iff.1 hx
    obtain ⟨hy, -⟩ := List.getElem?_eq_some_iff.1 hrow
    have hwidth := h.width row (List.mem_of_getElem? hrow)
    have hheight : box.rows.length ≤ _ := h.height
    simp only [Int.ofNat_eq_natCast]
    omega
  next => nomatch hc

theorem Codebox.Addressable.cell?_eq_none {box : Codebox} {x y : Int} (h : box.Addressable)
    (hout : x < 0 ∨ 0x7FFFFFFFFFFFFFFF ≤ x ∨ 0x7FFFFFFFFFFFFFFF ≤ y) :
    box.cell? x y = none := by
  cases hc : box.cell? x y with
  | none => rfl
  | some c =>
    have hin := h.lt_of_cell? hc
    omega

theorem Word.toInt_saturate_of_le {n : Int} (h : 0x8000000000000000 ≤ n) :
    (saturate n).toInt = 0x7FFFFFFFFFFFFFFF := by
  have hmin : Int64.minValue.toInt ≤ n := Int.le_trans (by decide) h
  have hmax : ¬ n ≤ Int64.maxValue.toInt := Int.not_le.2 (Int.lt_of_lt_of_le (by decide) h)
  rw [saturate, Int64.ofIntClamp, dif_pos hmin, dif_neg hmax]
  rfl

/-- A sum of a coordinate on a grid and a velocity is kept, or it stops beyond every grid. -/
theorem Word.saturate_cases {n : Int} (hn : 0 ≤ n) (v : Int64) :
    (saturate (n + v.toInt)).toInt = n + v.toInt ∨
      (saturate (n + v.toInt)).toInt = 0x7FFFFFFFFFFFFFFF ∧ 0x7FFFFFFFFFFFFFFF < n + v.toInt := by
  have hv := v.le_toInt
  by_cases hsum : n + v.toInt < 0x8000000000000000
  · exact .inl (toInt_saturate ⟨by omega, hsum⟩)
  · exact .inr ⟨toInt_saturate_of_le (by omega), by omega⟩

def Frame.exactly (frame : Frame) : Exact.Frame :=
  ⟨frame.codebox, frame.key, frame.x.toInt, frame.y.toInt, frame.vx, frame.vy, frame.inString⟩

theorem Op.run_of_ne_debug {op : Op} (h : op ≠ .debug) (frame other : Frame) (store : Store) :
    op.run frame store = op.run other store := by
  cases op with
  | debug => exact absurd rfl h
  | _ => rfl

namespace Exact

theorem Frame.dump_exactly (frame : Gridwalk.Frame) (store : Store) :
    frame.exactly.dump store = store.dump frame := by
  simp [dump, Store.dump, Store.dumpLines, Gridwalk.Frame.exactly, String.append_assoc]

theorem Frame.operate_exactly (frame : Gridwalk.Frame) (store : Store) (op : Op) :
    frame.exactly.operate store op = op.run frame store := by
  by_cases h : op = .debug
  · subst h
    rw [Op.run_debug, ← dump_exactly]
    rfl
  · rw [Op.run_of_ne_debug h frame (.enter frame.codebox frame.key)]
    cases op with
    | debug => exact absurd rfl h
    | _ => rfl

/-- The pointer of `frame` is at the place of `exact`, or both are off the grid. In all else the
frames agree. -/
structure Frame.Tracks (frame : Gridwalk.Frame) (exact : Frame) : Prop where
  addressable : frame.codebox.Addressable
  alike : exact = { frame.exactly with x := exact.x, y := exact.y }
  place : (frame.x.toInt = exact.x ∧ frame.y.toInt = exact.y) ∨
    (frame.current? = none ∧ exact.current? = none)

section
variable {frame : Gridwalk.Frame} {exact : Frame} {box : Codebox} {c : Char}

theorem Frame.Tracks.eq_exactly (h : Frame.Tracks frame exact) (hc : frame.current? = some c) :
    exact = frame.exactly := by
  rcases h.place with ⟨hx, hy⟩ | ⟨hnone, -⟩
  · rw [h.alike, ← hx, ← hy]
    rfl
  · cases hc.symm.trans hnone

theorem Frame.Tracks.current?_eq (h : Frame.Tracks frame exact) :
    exact.current? = frame.current? := by
  rcases h.place with ⟨hx, hy⟩ | ⟨hnone, hnone'⟩
  · rw [h.alike, ← hx, ← hy]
    rfl
  · rw [hnone, hnone']

theorem Frame.Tracks.site_eq (h : Frame.Tracks frame exact) : exact.site = frame.site := by
  rw [h.alike]
  rfl

theorem Frame.tracks_enter (h : box.Addressable) (key : Key) :
    Frame.Tracks (.enter box key) (.enter box key) := by
  refine ⟨h, rfl, ?_⟩
  by_cases hentry : box.entry < 0x8000000000000000
  · exact .inl ⟨Int64.toInt_ofNat_of_lt hentry, rfl⟩
  · -- as a word the entry is negative, as an integer it is behind the last column
    have hlt := h.entry
    have hwrap : (Int64.ofNat box.entry).toInt < 0 := by
      rw [Int64.toInt_ofNat', Int.bmod_def, Int64.size]
      split <;> omega
    have hfar : (0x7FFFFFFFFFFFFFFF : Int) ≤ box.entry := by omega
    exact .inr ⟨h.cell?_eq_none (.inl hwrap), h.cell?_eq_none (.inr (.inl hfar))⟩

/-- From the grid, a pointer that stops at the end of the range is off the grid. -/
theorem Frame.tracks_advance (h : frame.codebox.Addressable) (hc : frame.current? = some c) :
    Frame.Tracks frame.advance frame.exactly.advance := by
  refine ⟨h, rfl, ?_⟩
  obtain ⟨⟨hx, -⟩, hy, -⟩ := h.lt_of_cell? hc
  rcases Word.saturate_cases hx frame.vx with hx' | ⟨hstop, hfar⟩
  · rcases Word.saturate_cases hy frame.vy with hy' | ⟨hstop, hfar⟩
    · exact .inl ⟨hx', hy'⟩
    · exact .inr ⟨h.cell?_eq_none (.inr (.inr (Int.le_of_eq hstop.symm))),
        h.cell?_eq_none (.inr (.inr (Int.le_of_lt hfar)))⟩
  · exact .inr ⟨h.cell?_eq_none (.inr (.inl (Int.le_of_eq hstop.symm))),
      h.cell?_eq_none (.inr (.inl (Int.le_of_lt hfar)))⟩

end

-- ---------------------------------------------------------------------------
-- Steps
-- ---------------------------------------------------------------------------

/-- The machines agree but for the places of their pointers, which track each other. All frames but
the innermost wait on a character. -/
structure Tracks (machine : Gridwalk.Machine) (exact : Machine) : Prop where
  store : exact.store = machine.store
  steps : exact.steps = machine.steps
  journal : exact.journal = machine.journal
  frames : List.Forall₂ Frame.Tracks machine.frames exact.frames
  waiting : ∀ frame ∈ machine.frames.tail, ∃ c, frame.current? = some c

section
variable {reg : Registry} {store : Store} {steps : Nat} {journal : Journal}
  {frame : Gridwalk.Frame} {callers : List Gridwalk.Frame} {exactCallers : List Frame} {c d : Char}

theorem Tracks.of_moved {next : Gridwalk.Frame} {exact : Frame} (hnext : Frame.Tracks next exact)
    (hcallers : List.Forall₂ Frame.Tracks callers exactCallers)
    (hwaiting : ∀ frame ∈ callers, ∃ c, frame.current? = some c) :
    Tracks ⟨store, next :: callers, steps, journal⟩
      ⟨store, exact :: exactCallers, steps, journal⟩ :=
  ⟨rfl, rfl, rfl, .cons hnext hcallers, hwaiting⟩

theorem Tracks.of_stopped (hcallers : List.Forall₂ Frame.Tracks callers exactCallers)
    (hwaiting : ∀ frame ∈ callers, ∃ c, frame.current? = some c) :
    Tracks ⟨store, callers, steps, journal⟩ ⟨store, exactCallers, steps, journal⟩ :=
  ⟨rfl, rfl, rfl, hcallers, fun frame hf => hwaiting frame (List.mem_of_mem_tail hf)⟩

theorem call_tracks (hgrids : ∀ box ∈ reg.boxes, box.Addressable)
    (hframe : frame.codebox.Addressable) (hc : frame.current? = some c)
    (hcallers : List.Forall₂ Frame.Tracks callers exactCallers)
    (hwaiting : ∀ frame ∈ callers, ∃ c, frame.current? = some c) :
    (Gridwalk.Machine.call reg ⟨store, callers, steps, journal⟩ frame d).1 =
        (Machine.call reg ⟨store, exactCallers, steps, journal⟩ frame.exactly d).1 ∧
      Tracks (Gridwalk.Machine.call reg ⟨store, callers, steps, journal⟩ frame d).2
        (Machine.call reg ⟨store, exactCallers, steps, journal⟩ frame.exactly d).2 := by
  unfold Gridwalk.Machine.call Machine.call
  cases hb : reg.get? (.command d) with
  | none => exact ⟨rfl, .of_stopped hcallers hwaiting⟩
  | some box =>
    have hbox : box.Addressable := hgrids box (List.mem_of_find?_eq_some hb)
    have hdepth : callers.length = exactCallers.length := hcallers.length_eq
    refine ⟨rfl, rfl, rfl, ?_, .cons (Frame.tracks_enter hbox _) (.cons ?_ hcallers), ?_⟩
    · simp only [Machine.note, Gridwalk.Machine.note, Gridwalk.Machine.depth, hdepth]
      rfl
    · exact ⟨hframe, rfl, .inl ⟨rfl, rfl⟩⟩
    · exact List.forall_mem_cons.2 ⟨⟨c, hc⟩, hwaiting⟩

theorem ret_tracks (hcallers : List.Forall₂ Frame.Tracks callers exactCallers)
    (hwaiting : ∀ frame ∈ callers, ∃ c, frame.current? = some c) :
    (Gridwalk.Machine.ret ⟨store, callers, steps, journal⟩ frame).1 =
        (Machine.ret ⟨store, exactCallers, steps, journal⟩ frame.exactly).1 ∧
      Tracks (Gridwalk.Machine.ret ⟨store, callers, steps, journal⟩ frame).2
        (Machine.ret ⟨store, exactCallers, steps, journal⟩ frame.exactly).2 := by
  cases hcallers with
  | nil => exact ⟨rfl, rfl, rfl, rfl, .nil, nofun⟩
  | @cons caller exactCaller callers exactCallers hcaller hrest =>
    obtain ⟨⟨c, hc⟩, hwaiting'⟩ := List.forall_mem_cons.1 hwaiting
    obtain rfl := hcaller.eq_exactly hc
    obtain ⟨data, velocity, input, sink⟩ := store
    rcases velocity with _ | ⟨vy, _ | ⟨vx, velocity⟩⟩
    · exact ⟨rfl, .of_moved hcaller hrest hwaiting'⟩
    · exact ⟨rfl, .of_moved hcaller hrest hwaiting'⟩
    · -- the caller moves on from the character that called, in the direction it is given
      have hnext : Frame.Tracks (caller.turn vx vy).advance (caller.turn vx vy).exactly.advance :=
        Frame.tracks_advance hcaller.addressable hc
      exact ⟨rfl, .of_moved hnext hrest hwaiting'⟩

theorem execute_tracks (hgrids : ∀ box ∈ reg.boxes, box.Addressable)
    (hframe : frame.codebox.Addressable) (hc : frame.current? = some c)
    (hcallers : List.Forall₂ Frame.Tracks callers exactCallers)
    (hwaiting : ∀ frame ∈ callers, ∃ c, frame.current? = some c) :
    (Gridwalk.Machine.execute reg ⟨store, callers, steps, journal⟩ frame c).1 =
        (Machine.execute reg ⟨store, exactCallers, steps, journal⟩ frame.exactly c).1 ∧
      Tracks (Gridwalk.Machine.execute reg ⟨store, callers, steps, journal⟩ frame c).2
        (Machine.execute reg ⟨store, exactCallers, steps, journal⟩ frame.exactly c).2 := by
  have hmoved (inString : Bool) : Frame.Tracks { frame with inString }.advance
      { frame with inString }.exactly.advance := Frame.tracks_advance hframe hc
  unfold Gridwalk.Machine.execute Machine.execute
  cases hs : frame.inString with
  | true =>
    have hs' : frame.exactly.inString = true := hs
    by_cases hq : c = '"'
    · simp only [hs', hq, Gridwalk.Machine.readString, ↓reduceIte]
      exact ⟨trivial, .of_moved (hmoved false) hcallers hwaiting⟩
    · simp only [hs', hq, Gridwalk.Machine.readString, ↓reduceIte]
      exact ⟨trivial, .of_moved (Frame.tracks_advance hframe hc) hcallers hwaiting⟩
  | false =>
    have hs' : frame.exactly.inString = false := hs
    simp only [hs', Bool.false_eq_true, ↓reduceIte]
    cases Command.decode c with
    | op op =>
      simp only [Gridwalk.Machine.operate, Gridwalk.Machine.note, Machine.note,
        Frame.operate_exactly]
      rcases op.run frame store with ⟨fault | _, after⟩
      · exact ⟨rfl, .of_stopped hcallers hwaiting⟩
      · exact ⟨rfl, .of_moved (Frame.tracks_advance hframe hc) hcallers hwaiting⟩
    | quote => exact ⟨rfl, .of_moved (hmoved true) hcallers hwaiting⟩
    | ret => exact ret_tracks hcallers hwaiting
    | call d => exact call_tracks hgrids hframe hc hcallers hwaiting

end

section
variable {reg : Registry} {machine : Gridwalk.Machine} {exact : Machine} {key : Key}

theorem step_tracks (hgrids : ∀ box ∈ reg.boxes, box.Addressable) (h : Tracks machine exact) :
    (Gridwalk.Machine.step reg machine).1 = (Machine.step reg exact).1 ∧
      Tracks (Gridwalk.Machine.step reg machine).2 (Machine.step reg exact).2 := by
  obtain ⟨store, frames, steps, journal⟩ := machine
  obtain ⟨_, exactFrames, _, _⟩ := exact
  obtain ⟨rfl, rfl, rfl, hframes, hwaiting⟩ := h
  cases hframes with
  | nil => exact ⟨rfl, rfl, rfl, rfl, .nil, hwaiting⟩
  | @cons frame exact callers exactCallers hframe hcallers =>
    cases hc : frame.current? with
    | none =>
      simp only [Gridwalk.Machine.step, Machine.step, hframe.current?_eq, hc, hframe.site_eq]
      exact ⟨trivial, .of_stopped hcallers hwaiting⟩
    | some c =>
      obtain rfl := hframe.eq_exactly hc
      simp only [Gridwalk.Machine.step, Machine.step, hframe.current?_eq, hc]
      exact execute_tracks hgrids hframe.addressable hc hcallers hwaiting

theorem Tracks.strays_iff (h : Tracks machine exact) {frame : Frame} {callers : List Frame}
    (hf : exact.frames = frame :: callers) :
    (Gridwalk.Machine.step reg machine).1 = .failed (.outOfBounds frame.site) ↔
      frame.current? = none := by
  have hframes := h.frames
  rw [hf] at hframes
  obtain ⟨track, tracks, htrack, -, hmachine⟩ := List.forall₂_cons_right_iff.1 hframes
  rw [Gridwalk.Machine.step_outOfBounds_iff hmachine, htrack.site_eq, htrack.current?_eq]
  exact and_iff_right rfl

-- ---------------------------------------------------------------------------
-- Runs
-- ---------------------------------------------------------------------------

/-- Calls with the same result that leave all the same, but for the places of the frames that are
left. -/
structure SameEnd (answer : Except RunError Unit × Gridwalk.Machine)
    (exact : Except RunError Unit × Machine) : Prop where
  result : exact.1 = answer.1
  tracks : Tracks answer.2 exact.2

theorem drive_tracks (hgrids : ∀ box ∈ reg.boxes, box.Addressable) (h : Tracks machine exact)
    (fuel : Nat) :
    Option.Rel SameEnd (Gridwalk.Machine.drive reg fuel machine) (Machine.drive reg fuel exact) ∧
      List.Forall₂ Tracks (Gridwalk.Machine.trail reg fuel machine)
        (Machine.trail reg fuel exact) := by
  induction fuel generalizing machine exact with
  | zero => exact ⟨.none, .nil⟩
  | succ fuel ih =>
    obtain ⟨houtcome, hnext⟩ := step_tracks hgrids h
    simp only [Gridwalk.Machine.drive, Machine.drive, Gridwalk.Machine.trail, Machine.trail]
    rcases hs : Gridwalk.Machine.step reg machine with ⟨outcome, next⟩
    rcases hs' : Machine.step reg exact with ⟨outcome', next'⟩
    simp only [hs, hs'] at houtcome hnext
    subst houtcome
    cases outcome with
    | running =>
      obtain ⟨hrest, htrail⟩ := ih hnext
      exact ⟨hrest, .cons h htrail⟩
    | finished => exact ⟨.some ⟨rfl, hnext⟩, .cons h .nil⟩
    | failed error => exact ⟨.some ⟨rfl, hnext⟩, .cons h .nil⟩

theorem conclude_tracks (result : Except RunError Unit) (h : Tracks machine exact) :
    SameEnd (Gridwalk.Machine.conclude key result machine)
      (Machine.conclude key result exact) := by
  obtain ⟨store, frames, steps, journal⟩ := machine
  obtain ⟨_, exactFrames, _, _⟩ := exact
  obtain ⟨rfl, rfl, rfl, hframes, hwaiting⟩ := h
  cases result with
  | error error => exact ⟨rfl, rfl, rfl, rfl, hframes, hwaiting⟩
  | ok => exact ⟨rfl, rfl, rfl, rfl, hframes, hwaiting⟩

theorem tracks_entered {box : Codebox} (h : box.Addressable) (key : Key)
    (machine : Gridwalk.Machine) (frames : List Frame) :
    Tracks (machine.entered key box)
      (Machine.entered ⟨machine.store, frames, machine.steps, machine.journal⟩ key box) :=
  ⟨rfl, rfl, rfl, .cons (Frame.tracks_enter h key) .nil, nofun⟩

/-- Let the sides of all grids be at most `2 ^ 63 - 1` long. A call ends with coordinates that stop
at the ends of their range as it ends with exact ones: with the same result, stacks, streams, count
and journal, or it does not end with either. At every step on the way the pointers of all frames are
at the exact places, or off the grid like the exact ones, and the step reports that its frame is out
of bounds if and only if the exact place is off the grid. -/
theorem saturation_is_invisible (hgrids : ∀ box ∈ reg.boxes, box.Addressable) (fuel : Nat)
    (key : Key) (machine : Gridwalk.Machine) (frames : List Frame) :
    Option.Rel SameEnd (Gridwalk.Machine.run reg fuel key machine)
      (Machine.run reg fuel key ⟨machine.store, frames, machine.steps, machine.journal⟩) ∧
    List.Forall₂ (fun now exact => Tracks now exact ∧
        ∀ frame callers, exact.frames = frame :: callers →
          ((Gridwalk.Machine.step reg now).1 = .failed (.outOfBounds frame.site) ↔
            frame.current? = none))
      (Gridwalk.Machine.runTrail reg fuel key machine)
      (Machine.runTrail reg fuel key ⟨machine.store, frames, machine.steps, machine.journal⟩) := by
  unfold Machine.run Gridwalk.Machine.runTrail Machine.runTrail
  cases hb : reg.get? key with
  | none =>
    rw [Gridwalk.Machine.run_of_none hb]
    exact ⟨.some (conclude_tracks _ ⟨rfl, rfl, rfl, .nil, nofun⟩), .nil⟩
  | some box =>
    have hbox : box.Addressable := hgrids box (List.mem_of_find?_eq_some hb)
    obtain ⟨hdriven, htrail⟩ :=
      drive_tracks hgrids (tracks_entered hbox key machine frames) fuel
    rw [Gridwalk.Machine.run_of_some hb]
    dsimp only
    refine ⟨?_, htrail.imp fun now exact h => ⟨h, fun frame callers hf => h.strays_iff hf⟩⟩
    refine rel_map hdriven ?_
    rintro ⟨result, last⟩ ⟨_, last'⟩ - ⟨rfl, htracks⟩
    exact conclude_tracks _ htracks

end

/-- The main codebox starts in its second column and calls `t`, which leaves it two values from the
data stack for a velocity. -/
def hurled : Registry := .ofList
  [⟨"", 2, 1, [[' ', 't']], ⟨"t", 1⟩⟩, ⟨"t", 1, 0, [['}'], ['}'], ['@']], ⟨"t", 6⟩⟩]

def hurling : Gridwalk.Machine :=
  .start [0x7FFFFFFFFFFFFFFF, 0] [] [] .unlimited (.start .trace)

theorem saturation_is_invisible_hurling :
    (∀ box ∈ hurled.boxes, box.Addressable) ∧
    (∃ exact, Machine.run hurled 9 .main ⟨hurling.store, [], 0, hurling.journal⟩ = some exact ∧
      exact.1 = .error (.outOfBounds .main) ∧ exact.2.steps = 4) ∧
    ∃ now exact, now ∈ Gridwalk.Machine.runTrail hurled 9 .main hurling ∧ Tracks now exact ∧
      now.frames.map (·.x.toInt) = [0x7FFFFFFFFFFFFFFF] ∧
      exact.frames.map (·.x) = [0x8000000000000000] := by
  have hgrids : ∀ box ∈ hurled.boxes, box.Addressable := by decide
  obtain ⟨hsame, htrail⟩ := saturation_is_invisible hgrids 9 .main hurling []
  obtain ⟨answer, hrun, hresult, hsteps⟩ : ∃ answer,
      Gridwalk.Machine.run hurled 9 .main hurling = some answer ∧
        answer.1 = .error (.outOfBounds .main) ∧ answer.2.steps = 4 := ⟨_, rfl, rfl, rfl⟩
  refine ⟨hgrids, ?_, ?_⟩
  · have hends : Option.Rel SameEnd (some answer)
        (Machine.run hurled 9 .main ⟨hurling.store, [], 0, hurling.journal⟩) := hrun ▸ hsame
    generalize Machine.run hurled 9 .main ⟨hurling.store, [], 0, hurling.journal⟩ = ran at hends ⊢
    cases hends with
    | some hend =>
      exact ⟨_, rfl, hend.result.trans hresult, hend.tracks.steps.trans hsteps⟩
  · have hlast := (List.forall₂_iff_get.1 htrail).2 4 (by decide) (by decide)
    exact ⟨_, _, List.get_mem _ _, hlast.1, rfl, rfl⟩

end Exact

end Gridwalk
