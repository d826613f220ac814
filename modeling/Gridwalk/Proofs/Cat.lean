import Gridwalk.Proofs.Passages
import Gridwalk.Proofs.Reading
import Gridwalk.Proofs.StrictLoading
import Gridwalk.Run.Program

/-!
# The program that repeats its input

`Cat.text` is a program that reads characters and writes them until the input ends, and
`Cat.turns` is the unit that it imports, whose codeboxes set the velocity of their caller. For each
character the pointer goes once around the grid of the program: down the first column, where it
reads, decides and writes, and back up the last one. `Cat.echoes` says that it repeats every text.

```text
D  L     turn down; at the end of a lap turn left, back to D
i        read a character, or -1
:1+`     1 if it is a character, else 0
:1~-}}   as a velocity: down for a character, right for the end
s.@      turn there; at the end discard the -1 and return
o        write the character
R  U     turn right, then up
```
-/

namespace Gridwalk.Cat

open Gridwalk.Machine (Passes)
open Gridwalk.Stream (Script Sink)

-- ---------------------------------------------------------------------------
-- The program
-- ---------------------------------------------------------------------------

def text : String :=
  "\x7bturns\x7d\n\n######\n#    #\n#v===#\n#D  L#\n#i   #\n#:   #\n#1   #\n#+   #\n#`   #\n" ++
    "#:   #\n#1   #\n#~   #\n#-   #\n#\x7d   #\n#\x7d   #\n#s.@ #\n#o   #\n#R  U#\n######\n"

def turns : String :=
  "#######\n# Down#\n#v====#\n#\x7b    #\n#.    #\n#\x7b    #\n#.    #\n" ++
    "#0    #\n#\x7d    #\n#1    #\n#\x7d    #\n#@    #\n#######\n\n" ++
    "#######\n#Right#\n#v====#\n#\x7b    #\n#.    #\n#\x7b    #\n#.    #\n" ++
    "#1    #\n#\x7d    #\n#0    #\n#\x7d    #\n#@    #\n#######\n\n" ++
    "#######\n#  Up #\n#v====#\n#\x7b    #\n#.    #\n#\x7b    #\n#.    #\n" ++
    "#0    #\n#\x7d    #\n#0    #\n#1    #\n#-    #\n#\x7d    #\n#@    #\n#######\n\n" ++
    "#######\n# Left#\n#v====#\n#\x7b    #\n#.    #\n#\x7b    #\n#.    #\n" ++
    "#0    #\n#1    #\n#-    #\n#\x7d    #\n#0    #\n#\x7d    #\n#@    #\n#######\n\n" ++
    "#######\n#steer#\n#v====#\n#\x7b    #\n#.    #\n#\x7b    #\n#.    #\n#@    #\n#######\n"

def turn (name : String) (cells : List Char) (line : Nat) : Codebox where
  name
  width := 5
  entry := 0
  rows := (['{', '.', '{', '.'] ++ cells ++ ['@']).map (· :: List.replicate 4 ' ')
  origin := ⟨"turns", line⟩

def down : Codebox := turn "Down" ['0', '}', '1', '}'] 1
def right : Codebox := turn "Right" ['1', '}', '0', '}'] 15
def up : Codebox := turn "Up" ['0', '}', '0', '1', '-', '}'] 29
def left : Codebox := turn "Left" ['0', '1', '-', '}', '0', '}'] 45
def steer : Codebox := turn "steer" [] 61

def main : Codebox where
  name := ""
  width := 4
  entry := 0
  rows :=
    ['D', ' ', ' ', 'L'] ::
      [['i'], [':'], ['1'], ['+'], ['\x60'], [':'], ['1'], ['~'], ['-'], ['}'], ['}'],
        ['s', '.', '@'], ['o']].map (·.rightpad 4 ' ') ++ [['R', ' ', ' ', 'U']]
  origin := ⟨"cat", 3⟩

def boxes : List Codebox := [down, right, up, left, steer, main]

def registry : Registry := .ofList boxes

theorem outline_text :
    Outline.ofText "cat" text =
      ⟨[.imports ⟨"cat", 1⟩ "turns", .stray ⟨"cat", 2⟩ true, .box main], none⟩ := by
  unfold Outline.ofText Text.lines text
  repeat rw [String.toList_append]
  repeat rw [String.toList_ofList]
  rfl

theorem outline_turns :
    Outline.ofText "turns" turns =
      ⟨[.box down, .stray ⟨"turns", 14⟩ true, .box right, .stray ⟨"turns", 28⟩ true, .box up,
        .stray ⟨"turns", 44⟩ true, .box left, .stray ⟨"turns", 60⟩ true, .box steer], none⟩ := by
  unfold Outline.ofText Text.lines turns
  repeat rw [String.toList_append]
  repeat rw [String.toList_ofList]
  rfl

section
variable {source : Source} {loader : Loader}

theorem load_text (hcat : source.read "cat" = .ok text) (hturns : source.read "turns" = .ok turns)
    (journal : Log.Journal) : (loader.load source "cat" journal).1 = .ok registry := by
  have hmain : source.enter [] "cat" = .ok (Outline.ofText "cat" text) := by
    simp [Source.enter, hcat]
  have himport : source.enter ["cat"] "turns" = .ok (Outline.ofText "turns" turns) := by
    simp [Source.enter, hturns]
  rw [outline_text] at hmain
  rw [outline_turns] at himport
  obtain ⟨_, hplan⟩ := Source.exists_planWithin_eq hmain
  obtain ⟨_, hbody⟩ := Source.exists_planWithin_eq himport
  refine Loader.load_of_flat ?_ ?_ ?_ journal
  · simp only [Source.plan, hplan, hbody, List.nil_append, Source.expand_imports,
      Source.expand_stray, Source.expand_box, Source.expand_nil, Plan.flat]
    rfl
  · intro place
    simp [Source.plan, hplan, hbody, Plan.trace]
  · unfold Consistent
    decide

end

-- ---------------------------------------------------------------------------
-- Turns
-- ---------------------------------------------------------------------------

/-- Calling `c` sets the velocity of the caller and changes nothing else. -/
def Turns (c : Char) (vx vy : Int64) : Prop :=
  ∀ frame store, frame.current? = some c → frame.inString = false →
    Passes registry (frame, store) ((frame.turn vx vy).advance, store)

theorem turns_of_stroll {c : Char} {vx vy : Int64} (box : Codebox) (n : Nat)
    (hr : Command.isReserved c = false) (hb : registry.get? (.command c) = some box)
    (hl : { Frame.enter box (.command c) with y := .ofNat n }.current? = some '@')
    (h : ∀ frame store, (Frame.enter box (.command c)).stroll n (Store.save store frame) =
      some ({ Frame.enter box (.command c) with y := .ofNat n },
        { store with velocity := vy :: vx :: store.velocity })) :
    Turns c vx vy := by
  intro frame store hc hs
  exact .of_call hc hs hr hb (.of_stroll (h frame store)) hl rfl

theorem turns_down : Turns 'D' 0 1 := turns_of_stroll down 8 rfl rfl rfl fun _ _ => rfl
theorem turns_right : Turns 'R' 1 0 := turns_of_stroll right 8 rfl rfl rfl fun _ _ => rfl
theorem turns_up : Turns 'U' 0 (-1) := turns_of_stroll up 10 rfl rfl rfl fun _ _ => rfl
theorem turns_left : Turns 'L' (-1) 0 := turns_of_stroll left 10 rfl rfl rfl fun _ _ => rfl

theorem passes_steer (frame : Frame) {data velocity : List Int64} {input : Script} {sink : Sink}
    {vx vy : Int64} (hc : frame.current? = some 's') (hs : frame.inString = false) :
    Passes registry (frame, ⟨data, vy :: vx :: velocity, input, sink⟩)
      ((frame.turn vx vy).advance, ⟨data, velocity, input, sink⟩) := by
  have hb : registry.get? (.command 's') = some steer := rfl
  have hw : (Frame.enter steer (.command 's')).stroll 4
      (Store.save ⟨data, vy :: vx :: velocity, input, sink⟩ frame) =
      some (⟨steer, .command 's', 0, 4, 0, 1, false⟩, ⟨data, vy :: vx :: velocity, input, sink⟩) :=
    rfl
  exact .of_call hc hs rfl hb (.of_stroll hw) rfl rfl

-- ---------------------------------------------------------------------------
-- Laps
-- ---------------------------------------------------------------------------

def cell (x y vx vy : Int64) : Frame := ⟨main, .main, x, y, vx, vy, false⟩

theorem Turns.passes_cell {c : Char} {x y ux uy vx vy : Int64} {store : Store} (h : Turns c vx vy)
    (hc : main.cell? x.toInt y.toInt = some c) :
    Passes registry (cell x y ux uy, store) ((cell x y vx vy).advance, store) :=
  h (cell x y ux uy) store hc rfl

def scene (data velocity : List Int64) (input : Script) (written : Array UInt8) (flushes : Nat) :
    Store :=
  ⟨data, velocity, input, { Sink.unlimited with written, flushes }⟩

section
variable {data velocity : List Int64} {input rest : Script} {written : Array UInt8} {flushes : Nat}
  {vx vy : Int64} {c : Char} {read : Option Char}

theorem flush_scene :
    (scene data velocity input written flushes).sink.flush =
      (.ok (), (scene data velocity input written (flushes + 1)).sink) :=
  rfl

theorem passes_read (h : input.readChar = (.ok read, rest)) :
    Passes registry (cell 0 0 vx vy, scene [] [] input written flushes)
      (cell 0 2 0 1, scene [read.elim (-1) Word.ofChar] [] rest written (flushes + 1)) := by
  have hread : Op.input.run (cell 0 1 0 1) (scene [] [] input written flushes) =
      (.ok (), scene [read.elim (-1) Word.ofChar] [] rest written (flushes + 1)) := by
    have hinput : (scene [] [] input written flushes).input.readChar = (.ok read, rest) := h
    simp only [Op.run, Store.read, flush_scene, hinput]
    rfl
  calc
    Passes registry (cell 0 0 vx vy, scene [] [] input written flushes)
      (cell 0 1 0 1, scene [] [] input written flushes) := turns_down.passes_cell rfl
    Passes registry _
      (cell 0 2 0 1, scene [read.elim (-1) Word.ofChar] [] rest written (flushes + 1)) :=
      .of_op (c := 'i') rfl rfl rfl hread

theorem exists_successor (c : Char) :
    ∃ w, Word.ofInt? ((1 : Int64).toInt + (Word.ofChar c).toInt) = some w ∧ 0 < w := by
  have hv := c.valid
  unfold UInt32.isValidChar Nat.isValidChar at hv
  rw [Word.toInt_ofChar, Int64.toInt_one]
  cases hw : Word.ofInt? (1 + c.toNat) with
  | none =>
    have hrange := Word.ofInt?_eq_none_iff.1 hw
    have hc : c.toNat = c.val.toNat := rfl
    omega
  | some w =>
    refine ⟨w, rfl, ?_⟩
    rw [Int64.lt_iff_toInt_lt, Word.toInt_of_ofInt? hw, Int64.toInt_zero]
    omega

theorem passes_decide (c : Char) :
    Passes registry (cell 0 2 0 1, scene [Word.ofChar c] [] input written flushes)
      (cell 0 12 0 1, scene [Word.ofChar c] [1, 0] input written flushes) := by
  obtain ⟨w, hw, hpos⟩ := exists_successor c
  have hadd : Op.add.run (cell 0 4 0 1)
      (scene [1, Word.ofChar c, Word.ofChar c] [] input written flushes) =
      (.ok (), scene [w, Word.ofChar c] [] input written flushes) := by
    simp only [Op.run, Store.takeTwo, Store.take, Store.pushChecked, scene, hw]
    rfl
  have hpositive : Op.positive.run (cell 0 5 0 1)
      (scene [w, Word.ofChar c] [] input written flushes) =
      (.ok (), scene [1, Word.ofChar c] [] input written flushes) := by
    simp only [Op.run, Store.take, scene, hpos, ↓reduceIte]
    rfl
  calc
    Passes registry (cell 0 2 0 1, scene [Word.ofChar c] [] input written flushes)
      (cell 0 4 0 1, scene [1, Word.ofChar c, Word.ofChar c] [] input written flushes) :=
      .of_stroll (n := 2) rfl
    Passes registry _ (cell 0 5 0 1, scene [w, Word.ofChar c] [] input written flushes) :=
      .of_op (c := '+') rfl rfl rfl hadd
    Passes registry _ (cell 0 6 0 1, scene [1, Word.ofChar c] [] input written flushes) :=
      .of_op (c := '\x60') rfl rfl rfl hpositive
    Passes registry _ (cell 0 12 0 1, scene [Word.ofChar c] [1, 0] input written flushes) :=
      .of_stroll (n := 6) rfl

theorem passes_write (c : Char) :
    Passes registry (cell 0 13 0 1, scene [Word.ofChar c] [] input written flushes)
      (cell 0 14 0 1, scene [] [] input (written ++ Utf8.encode c) flushes) := by
  have hwrite : Op.output.run (cell 0 13 0 1)
      (scene [Word.ofChar c] [] input written flushes) =
      (.ok (), scene [] [] input (written ++ Utf8.encode c) flushes) := by
    simp only [Op.run, Store.take, scene, Word.toChar?_ofChar, Store.write, Sink.writeText]
    rw [Sink.write_of_limit_eq_none rfl]
    simp [Utf8.encodeText]
  exact .of_op (c := 'o') rfl rfl rfl hwrite

/-- From the foot of the first column the pointer goes around to its head. -/
theorem passes_back (store : Store) :
    Passes registry (cell 0 14 0 1, store) (cell 0 0 (-1) 0, store) :=
  calc
    Passes registry (cell 0 14 0 1, store) (cell 1 14 1 0, store) := turns_right.passes_cell rfl
    Passes registry _ (cell 3 14 1 0, store) := .of_stroll (n := 2) rfl
    Passes registry _ (cell 3 13 0 (-1), store) := turns_up.passes_cell rfl
    Passes registry _ (cell 3 0 0 (-1), store) := .of_stroll (n := 13) rfl
    Passes registry _ (cell 2 0 (-1) 0, store) := turns_left.passes_cell rfl
    Passes registry _ (cell 0 0 (-1) 0, store) := .of_stroll (n := 2) rfl

/-- While there are characters, a lap repeats one. -/
theorem passes_lap (h : input.readChar = (.ok (some c), rest)) :
    Passes registry (cell 0 0 vx vy, scene [] [] input written flushes)
      (cell 0 0 (-1) 0, scene [] [] rest (written ++ Utf8.encode c) (flushes + 1)) :=
  calc
    Passes registry (cell 0 0 vx vy, scene [] [] input written flushes)
      (cell 0 2 0 1, scene [Word.ofChar c] [] rest written (flushes + 1)) := passes_read h
    Passes registry _ (cell 0 12 0 1, scene [Word.ofChar c] [1, 0] rest written (flushes + 1)) :=
      passes_decide c
    Passes registry _ (cell 0 13 0 1, scene [Word.ofChar c] [] rest written (flushes + 1)) :=
      passes_steer (cell 0 12 0 1) rfl rfl
    Passes registry _
      (cell 0 14 0 1, scene [] [] rest (written ++ Utf8.encode c) (flushes + 1)) :=
      passes_write c
    Passes registry _
      (cell 0 0 (-1) 0, scene [] [] rest (written ++ Utf8.encode c) (flushes + 1)) :=
      passes_back _

/-- At the end of the input the pointer gets to the return. -/
theorem passes_end (h : input.readChar = (.ok none, rest)) :
    Passes registry (cell 0 0 vx vy, scene [] [] input written flushes)
      (cell 2 12 1 0, scene [] [] rest written (flushes + 1)) :=
  calc
    Passes registry (cell 0 0 vx vy, scene [] [] input written flushes)
      (cell 0 2 0 1, scene [-1] [] rest written (flushes + 1)) := passes_read h
    Passes registry _ (cell 0 12 0 1, scene [-1] [0, 1] rest written (flushes + 1)) :=
      .of_stroll (n := 10) rfl
    Passes registry _ (cell 1 12 1 0, scene [-1] [] rest written (flushes + 1)) :=
      passes_steer (cell 0 12 0 1) rfl rfl
    Passes registry _ (cell 2 12 1 0, scene [] [] rest written (flushes + 1)) :=
      .of_stroll (n := 1) rfl

theorem passes_text {chars : List Char} (hs : input.Steady)
    (hb : input.bytes = chars.flatMap Utf8.encode) :
    ∃ flushes', Passes registry (cell 0 0 vx vy, scene [] [] input written flushes)
      (cell 2 12 1 0, scene [] [] [] (written ++ chars.flatMap Utf8.encode) flushes') := by
  -- from one lap to the next only the direction is another, from which the first cell is reached
  induction chars generalizing input written flushes vx vy with
  | nil =>
    refine ⟨flushes + 1, ?_⟩
    rw [List.flatMap_nil, Array.appendList_nil]
    exact passes_end (Script.readChar_of_bytes_nil hs hb)
  | cons c chars ih =>
    obtain ⟨rest, hread, hleft, hsteady⟩ := Script.readChar_of_encode hs hb
    obtain ⟨flushes', hrest⟩ := ih hsteady hleft
    have hwritten : written ++ (c :: chars).flatMap Utf8.encode =
        written ++ Utf8.encode c ++ chars.flatMap Utf8.encode := by
      apply Array.toList_inj.1
      simp
    rw [hwritten]
    exact ⟨flushes', (passes_lap hread).trans hrest⟩

end

-- ---------------------------------------------------------------------------
-- Runs
-- ---------------------------------------------------------------------------

section
variable {source : Source} {loader : Loader} {input : Script} {chars : List Char}

theorem exists_runOn (hs : input.Steady) (hb : input.bytes = chars.flatMap Utf8.encode)
    (journal : Log.Journal) :
    ∃ fuel last,
      Program.runOn registry fuel .main [] [] input .unlimited journal = some (.ok (), last) ∧
      last.store.sink.written.toList = chars.flatMap Utf8.encode ∧
      last.store.input = [] ∧ last.store.data = [] ∧ last.store.velocity = [] := by
  obtain ⟨flushes, hpasses⟩ : ∃ flushes, Passes registry
      (.enter main .main, (Machine.start [] [] input .unlimited journal).store)
      (cell 2 12 1 0, scene [] [] [] (#[] ++ chars.flatMap Utf8.encode) flushes) :=
    passes_text hs hb
  obtain ⟨fuel, ending, hend, hrun⟩ :=
    Machine.exists_run_of_passes (show registry.get? .main = some main from rfl) _ hpasses rfl rfl
  have hresult : (Machine.conclude .main (.ok ()) ending).1 = .ok () := by
    rw [Machine.conclude_fst, hend, flush_scene]
    rfl
  have hstore : (Machine.conclude .main (.ok ()) ending).2.store =
      scene [] [] [] ((#[] : Array UInt8) ++ chars.flatMap Utf8.encode) (flushes + 1) := by
    rw [Machine.conclude_store, hend, flush_scene]
    rfl
  refine ⟨fuel, (Machine.conclude .main (.ok ()) ending).2, ?_, ?_⟩
  · rw [Program.runOn, hrun]
    exact congrArg some (Prod.ext hresult rfl)
  · rw [hstore]
    exact ⟨by simp [scene], rfl, rfl, rfl⟩

/-- The program repeats every text. Where the texts of the program and of the unit that it imports
are found under their names, it loads in either mode, and on the encoding of any characters, in
whatever chunks it comes, the run of its main codebox succeeds, writes these bytes, reads the whole
input and leaves both stacks empty. -/
theorem echoes (loader : Loader) (hcat : source.read "cat" = .ok text)
    (hturns : source.read "turns" = .ok turns) (hs : input.Steady)
    (hb : input.bytes = chars.flatMap Utf8.encode) (journal : Log.Journal) :
    (∃ reg, (loader.load source "cat" journal).1 = .ok reg ∧
      ∀ journal', ∃ fuel last,
        Program.runOn reg fuel .main [] [] input .unlimited journal' = some (.ok (), last) ∧
        last.store.sink.written.toList = chars.flatMap Utf8.encode ∧
        last.store.input = [] ∧ last.store.data = [] ∧ last.store.velocity = []) ∧
    ∃ fuel execution,
      Program.run loader source "cat" fuel input .unlimited journal = some execution ∧
      execution.result = .ok () ∧
      execution.sink.written.toList = chars.flatMap Utf8.encode := by
  have hload : (loader.load source "cat" journal).1 = .ok registry := load_text hcat hturns journal
  refine ⟨⟨registry, hload, exists_runOn hs hb⟩, ?_⟩
  have hmain : ∀ journal', ∃ fuel execution,
      Program.runMain registry fuel input .unlimited journal' = some execution ∧
      execution.result = .ok () ∧
      execution.sink.written.toList = chars.flatMap Utf8.encode := by
    intro journal'
    obtain ⟨fuel, last, hrun, hwritten, -⟩ := exists_runOn hs hb journal'
    refine ⟨fuel, ⟨.ok (), last.store.sink, last.journal⟩, ?_, rfl, hwritten⟩
    rw [Program.runMain, hrun]
    rfl
  rcases hl : loader.load source "cat" journal with ⟨result, journal'⟩
  rw [hl] at hload
  cases hload
  simp only [Program.run, hl]
  exact hmain _

end

def dividedInput : Script := [.chunk [0xC3], .failure ⟨.interrupted, "again"⟩, .chunk [0xA9, 0]]

theorem echoes_divided :
    ∃ fuel execution,
      Program.run ⟨true, .byKey⟩ (.ofUnits [("cat", text), ("turns", turns)]) "cat" fuel
        dividedInput .unlimited (.start .warn) = some execution ∧
      execution.result = .ok () ∧ execution.sink.written.toList = [0xC3, 0xA9, 0] := by
  have hcat : (Source.ofUnits [("cat", text), ("turns", turns)]).read "cat" = .ok text := rfl
  have hturns : (Source.ofUnits [("cat", text), ("turns", turns)]).read "turns" = .ok turns := rfl
  have hbytes : dividedInput.bytes = ['é', '\x00'].flatMap Utf8.encode := by decide
  obtain ⟨-, fuel, execution, hrun, hresult, hwritten⟩ :=
    echoes ⟨true, .byKey⟩ hcat hturns (by decide) hbytes (.start .warn)
  exact ⟨fuel, execution, hrun, hresult, hwritten.trans (by decide)⟩

end Gridwalk.Cat
