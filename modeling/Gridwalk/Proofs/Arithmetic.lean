import Mathlib.Data.Rat.Floor
import Gridwalk.Proofs.StepLaws

/-!
# Arithmetic

A command for arithmetic takes two values and pushes what the operation makes of them over the
integers, or it fails: words wrap nowhere. For sums, differences and products this is `ofInt?`. A
quotient is worked out in words, rounded towards zero and then corrected by the sign of what it
leaves; `floorDiv?_eq` says that the outcome is the quotient rounded down, whatever the signs, and
`decrement_isSome` that the correction stays in the range. So the smallest word divided by -1 is the
only division that overflows (`floorDiv?_eq_none_iff`).

`arithmetic_is_exact` is what this means for a step.
-/

namespace Gridwalk

-- ---------------------------------------------------------------------------
-- Division of words
-- ---------------------------------------------------------------------------

namespace Word

theorem floor_div_eq {a b q r : Int} (hb : b = a * q + r)
    (hr : (0 ≤ r ∧ r < a) ∨ (a < r ∧ r ≤ 0)) : ⌊(b : ℚ) / a⌋ = q := by
  have ha : (a : ℚ) ≠ 0 := by
    have : a ≠ 0 := by omega
    exact_mod_cast this
  have hquot : (b : ℚ) / a = r / a + q := by
    rw [hb, Int.cast_add, Int.cast_mul, add_div, mul_div_cancel_left₀ _ ha, add_comm]
  rw [hquot, Int.floor_add_intCast, add_eq_right, Int.floor_eq_zero_iff]
  rcases hr with ⟨hr, hlt⟩ | ⟨hlt, hr⟩
  · have hpos : (0 : ℚ) < a := by exact_mod_cast Int.lt_of_le_of_lt hr hlt
    refine ⟨div_nonneg (by exact_mod_cast hr) hpos.le, ?_⟩
    exact (div_lt_one hpos).2 (by exact_mod_cast hlt)
  · have hneg : (a : ℚ) < 0 := by exact_mod_cast Int.lt_of_lt_of_le hlt hr
    refine ⟨div_nonneg_of_nonpos (by exact_mod_cast hr) hneg.le, ?_⟩
    exact (div_lt_one_of_neg hneg).2 (by exact_mod_cast hlt)

theorem floor_minValue_div :
    ⌊(Int64.minValue.toInt : ℚ) / (-1 : Int64).toInt⌋ = 0x8000000000000000 :=
  floor_div_eq (r := 0) rfl (.inr ⟨by decide, le_rfl⟩)

section
variable {a b q r : Int64}

theorem quotient?_eq_none_iff : quotient? b a = none ↔ a = 0 ∨ b = Int64.minValue ∧ a = -1 := by
  unfold quotient?
  split <;> simp_all

theorem toInt_quotient (h : quotient? b a = some q) : q.toInt = b.toInt.tdiv a.toInt := by
  unfold quotient? at h
  split at h
  next => nomatch h
  next hn =>
    obtain rfl := Option.some.inj h
    by_cases hb : b = Int64.minValue
    · have ha : a ≠ -1 := fun ha => hn (.inr ⟨hb, ha⟩)
      exact Int64.toInt_div_of_ne_right b a ha
    · exact Int64.toInt_div_of_ne_left b a hb

theorem toInt_remainder (h : remainder? b a = some r) : r.toInt = b.toInt.tmod a.toInt := by
  obtain ⟨_, -, rfl⟩ := Option.map_eq_some_iff.1 h
  exact Int64.toInt_mod b a

theorem toInt_ne_zero (h : a ≠ 0) : a.toInt ≠ 0 := fun hz => h (Int64.toInt.inj hz)

theorem natAbs_remainder_lt (h : remainder? b a = some r) : r.toInt.natAbs < a.toInt.natAbs := by
  rw [toInt_remainder h, Int.natAbs_tmod]
  obtain ⟨_, hq, -⟩ := Option.map_eq_some_iff.1 h
  have ha : a ≠ 0 := fun ha => nomatch hq.symm.trans (quotient?_eq_none_iff.2 (.inl ha))
  exact Nat.mod_lt _ (Int.natAbs_pos.2 (toInt_ne_zero ha))

/-- The quotient rounded towards zero can be made smaller by one where the correction does so: the
divisor is at least two away from zero, so the quotient is far from the ends of the range. -/
theorem decrement_isSome (hq : quotient? b a = some q) (hr : remainder? b a = some r)
    (hne : r ≠ 0) : (ofInt? (q.toInt - 1)).isSome := by
  have hrem := natAbs_remainder_lt hr
  have hpos : 0 < r.toInt.natAbs := Int.natAbs_pos.2 (toInt_ne_zero hne)
  have hquot : q.toInt.natAbs ≤ b.toInt.natAbs / 2 := by
    rw [toInt_quotient hq, Int.natAbs_tdiv]
    exact Nat.div_le_div_left (by omega) Nat.two_pos
  have hle := b.le_toInt
  have hlt := b.toInt_lt
  rw [Option.isSome_iff_ne_none, Ne, ofInt?_eq_none_iff]
  omega

theorem floorDiv?_of_quotient (hq : quotient? b a = some q) (hr : remainder? b a = some r) :
    floorDiv? b a = ofInt? ⌊(b.toInt : ℚ) / a.toInt⌋ := by
  have hsum : b.toInt = a.toInt * q.toInt + r.toInt := by
    rw [toInt_quotient hq, toInt_remainder hr, Int.mul_tdiv_add_tmod]
  have hrem := natAbs_remainder_lt hr
  have hsign : ∀ w : Int64, w < 0 ↔ w.toInt < 0 := fun w => Int64.lt_iff_toInt_lt
  simp only [floorDiv?, hq, hr, Option.bind_eq_bind, Option.bind_some, hsign]
  split
  next hc =>
    have hne := toInt_ne_zero hc.1
    have hdown : b.toInt = a.toInt * (q.toInt - 1) + (r.toInt + a.toInt) := by
      rw [hsum, Int.mul_sub]
      omega
    rw [floor_div_eq hdown (by omega)]
  next hc =>
    have hzero : r.toInt = 0 ∨ (r.toInt < 0 ↔ a.toInt < 0) := by
      by_contra hn
      obtain ⟨hne, hdiff⟩ := not_or.1 hn
      exact hc ⟨fun hz => hne (by rw [hz]; rfl), hdiff⟩
    rw [floor_div_eq hsum (by omega), ofInt?_toInt]

/-- Division of words rounds down, or says that the quotient is no word. -/
theorem floorDiv?_eq (h : a ≠ 0) : floorDiv? b a = ofInt? ⌊(b.toInt : ℚ) / a.toInt⌋ := by
  cases hq : quotient? b a with
  | some q => exact floorDiv?_of_quotient hq (by rw [remainder?, hq]; rfl)
  | none =>
    obtain ⟨rfl, rfl⟩ := (quotient?_eq_none_iff.1 hq).resolve_left h
    rw [floor_minValue_div]
    rfl

theorem floorDiv?_eq_none_iff : floorDiv? b a = none ↔ a = 0 ∨ b = Int64.minValue ∧ a = -1 := by
  rw [← quotient?_eq_none_iff]
  cases hq : quotient? b a with
  | none => simp [floorDiv?, hq]
  | some q =>
    have hr : remainder? b a = some (b % a) := by rw [remainder?, hq]; rfl
    simp only [floorDiv?, hq, hr, Option.bind_eq_bind, Option.bind_some, reduceCtorEq, iff_false]
    split
    next hc => exact Option.isSome_iff_ne_none.1 (decrement_isSome hq hr hc.1)
    next => nofun

end

end Word

-- ---------------------------------------------------------------------------
-- Commands
-- ---------------------------------------------------------------------------

/-- What the character `c` makes, over the integers, of a value `a` on top and `b` below it, if it
is a command for arithmetic. -/
def Command.arithmetic? : Char → Option (Int → Int → Int)
  | '+' => some fun a b => a + b
  | '-' => some fun a b => b - a
  | '*' => some fun a b => a * b
  | ',' => some fun a b => ⌊(b : ℚ) / a⌋
  | _ => none

theorem Op.run_divide (frame : Frame) (store : Store) :
    Op.divide.run frame store = store.takeTwo fun a b store =>
      if a = 0 then (.error .divisionByZero, store)
      else store.pushChecked (Word.ofInt? ⌊(b.toInt : ℚ) / a.toInt⌋) := by
  simp only [Op.run]
  congr
  funext a b store
  split
  next => rfl
  next ha => rw [Word.floorDiv?_eq ha]

theorem Op.run_arithmetic {c : Char} {result : Int → Int → Int}
    (h : Command.arithmetic? c = some result) :
    ∃ op, Command.decode c = .op op ∧ ∀ frame store, op.run frame store =
      store.takeTwo fun a b store =>
        if c = ',' ∧ a = 0 then (.error .divisionByZero, store)
        else store.pushChecked (Word.ofInt? (result a.toInt b.toInt)) := by
  unfold Command.arithmetic? at h
  split at h
  next => cases h; exact ⟨.add, rfl, fun _ _ => by simp [Op.run]⟩
  next => cases h; exact ⟨.subtract, rfl, fun _ _ => by simp [Op.run]⟩
  next => cases h; exact ⟨.multiply, rfl, fun _ _ => by simp [Op.run]⟩
  next => cases h; exact ⟨.divide, rfl, fun _ _ => by simp [Op.run_divide]⟩
  next => nomatch h

theorem Store.takeTwo_of_length_lt {store : Store}
    {f : Int64 → Int64 → Store → Except Fault Unit × Store} (h : store.data.length < 2) :
    store.takeTwo f = (.error .stackUnderflow, { store with data := [] }) := by
  obtain ⟨data, velocity, input, sink⟩ := store
  match data with
  | [] | [_] => rfl
  | _ :: _ :: rest => exact absurd h (Nat.not_lt.2 (Nat.le_add_left 2 rest.length))

-- ---------------------------------------------------------------------------
-- Steps
-- ---------------------------------------------------------------------------

namespace Machine

/-- The next step of `machine` has this outcome and leaves `data` on the data stack. Velocities and
streams stay as they are. -/
def Settles (reg : Registry) (machine : Machine) (outcome : Outcome) (data : List Int64) : Prop :=
  (step reg machine).1 = outcome ∧ (step reg machine).2.store = { machine.store with data }

section
variable (reg : Registry) {machine : Machine} {frame : Frame} {callers : List Frame} {c : Char}
  {op : Op} {a b : Int64} {data : List Int64} {result : Int → Int → Int}
  (hf : machine.frames = frame :: callers) (hs : frame.inString = false)
  (hc : frame.current? = some c)
include hf hs hc

theorem settles_of_ok (hd : Command.decode c = .op op)
    (hr : op.run frame machine.store = (.ok (), { machine.store with data })) :
    Settles reg machine .running data := by
  have he : frame.effect c machine.store = .moves frame.advance { machine.store with data } := by
    simp only [Frame.effect, hs, hd, hr, Bool.false_eq_true, ↓reduceIte]
  obtain ⟨journal, hstep⟩ := step_of_moves reg hf hc he
  rw [Settles, hstep]
  exact ⟨rfl, rfl⟩

theorem settles_of_error {fault : Fault} (hd : Command.decode c = .op op)
    (hr : op.run frame machine.store = (.error fault, { machine.store with data })) :
    Settles reg machine (.failed (fault.raise c frame.site)) data := by
  have he : frame.effect c machine.store =
      .fails (fault.raise c frame.site) { machine.store with data } := by
    simp only [Frame.effect, hs, hd, hr, Bool.false_eq_true, ↓reduceIte]
  obtain ⟨journal, hstep⟩ := step_of_fails reg hf hc he
  rw [Settles, hstep]
  exact ⟨rfl, rfl⟩

variable (hr : Command.arithmetic? c = some result)
include hr

theorem settles_underflow (hlt : machine.store.data.length < 2) :
    Settles reg machine (.failed (.stackUnderflow c frame.site)) [] := by
  obtain ⟨op, hd, hrun⟩ := Op.run_arithmetic hr
  have hop := (hrun frame machine.store).trans (Store.takeTwo_of_length_lt hlt)
  exact settles_of_error reg hf hs hc hd hop

variable (hdata : machine.store.data = a :: b :: data)
include hdata

theorem settles_division (hzero : c = ',' ∧ a = 0) :
    Settles reg machine (.failed (.divisionByZero frame.site)) data := by
  obtain ⟨op, hd, hrun⟩ := Op.run_arithmetic hr
  have hop : op.run frame machine.store =
      (.error .divisionByZero, { machine.store with data }) := by
    simp only [hrun, Store.takeTwo, Store.take, hdata, hzero, and_self, ↓reduceIte]
  exact settles_of_error reg hf hs hc hd hop

theorem settles_exact (hzero : ¬(c = ',' ∧ a = 0)) :
    (∀ value, Word.ofInt? (result a.toInt b.toInt) = some value →
      Settles reg machine .running (value :: data)) ∧
    (Word.ofInt? (result a.toInt b.toInt) = none →
      Settles reg machine (.failed (.overflow c frame.site)) data) := by
  obtain ⟨op, hd, hrun⟩ := Op.run_arithmetic hr
  have hop : op.run frame machine.store =
      { machine.store with data }.pushChecked (Word.ofInt? (result a.toInt b.toInt)) := by
    simp only [hrun, Store.takeTwo, Store.take, hdata, hzero, ↓reduceIte]
  constructor
  · intro value hv
    rw [hv] at hop
    exact settles_of_ok reg hf hs hc hd hop
  · intro hv
    rw [hv] at hop
    exact settles_of_error reg hf hs hc hd hop

theorem division_overflows_iff (hcomma : c = ',') :
    (step reg machine).1 = .failed (.overflow c frame.site) ↔ b = Int64.minValue ∧ a = -1 := by
  subst hcomma
  by_cases ha : a = 0
  · have hfails := (settles_division reg hf hs hc hr hdata ⟨rfl, ha⟩).1
    simp [hfails, ha]
  · obtain ⟨hpush, hover⟩ :=
      settles_exact reg hf hs hc hr hdata fun hzero => ha hzero.2
    cases hr
    rw [← Word.floorDiv?_eq ha] at hover hpush
    have hnone : Word.floorDiv? b a = none ↔ b = Int64.minValue ∧ a = -1 := by
      rw [Word.floorDiv?_eq_none_iff, or_iff_right ha]
    rw [← hnone]
    cases hq : Word.floorDiv? b a with
    | none => simp [(hover hq).1]
    | some value => simp [(hpush value hq).1]

end

/-- At a command for arithmetic, let `a` be on top and `b` below it. A division by zero is reported.
Otherwise let `r` be the sum, the difference `b - a`, the product or the quotient of `b` by `a`
rounded down, over the integers: the step pushes `r` in place of the two values, or reports an
overflow at that command if `r` is no word. A step that fails takes the two values all the same.
Only the smallest word divided by -1 overflows in a division, where the correction by one never
does. With fewer than two values the step reports that and takes what there is. -/
theorem arithmetic_is_exact (reg : Registry) (machine : Machine) (frame : Frame)
    (callers : List Frame) (c : Char) (result : Int → Int → Int)
    (hf : machine.frames = frame :: callers) (hs : frame.inString = false)
    (hc : frame.current? = some c) (hr : Command.arithmetic? c = some result) :
    (∀ a b data, machine.store.data = a :: b :: data →
      (c = ',' ∧ a = 0 → Settles reg machine (.failed (.divisionByZero frame.site)) data) ∧
      (¬(c = ',' ∧ a = 0) → ∀ r, r = result a.toInt b.toInt →
        (-0x8000000000000000 ≤ r ∧ r < 0x8000000000000000 →
          ∃ value, value.toInt = r ∧ Settles reg machine .running (value :: data)) ∧
        (¬(-0x8000000000000000 ≤ r ∧ r < 0x8000000000000000) →
          Settles reg machine (.failed (.overflow c frame.site)) data)) ∧
      (c = ',' → ((step reg machine).1 = .failed (.overflow c frame.site) ↔
        b = Int64.minValue ∧ a = -1))) ∧
    (∀ a b q r, Word.quotient? b a = some q → Word.remainder? b a = some r → r ≠ 0 →
      (Word.ofInt? (q.toInt - 1)).isSome) ∧
    (machine.store.data.length < 2 →
      Settles reg machine (.failed (.stackUnderflow c frame.site)) []) := by
  refine ⟨fun a b data hdata => ⟨?_, ?_, ?_⟩, fun _ _ _ _ => Word.decrement_isSome, ?_⟩
  · exact settles_division reg hf hs hc hr hdata
  · rintro hzero r rfl
    obtain ⟨hpush, hover⟩ := settles_exact reg hf hs hc hr hdata hzero
    constructor
    · intro hrange
      cases hv : Word.ofInt? (result a.toInt b.toInt) with
      | none =>
        have hout := Word.ofInt?_eq_none_iff.1 hv
        omega
      | some value => exact ⟨value, Word.toInt_of_ofInt? hv, hpush value hv⟩
    · intro hrange
      refine hover (Word.ofInt?_eq_none_iff.2 ?_)
      omega
  · exact division_overflows_iff reg hf hs hc hr hdata
  · exact settles_underflow reg hf hs hc hr

def sharing (data : List Int64) : Machine :=
  entered (start data [] [] .unlimited (.start .warn)) .main ⟨"", 1, 0, [[',']], ⟨"t", 1⟩⟩

theorem arithmetic_is_exact_sharing :
    Settles ∅ (sharing [-2, 7, 5]) .running [-4, 5] ∧
    Settles ∅ (sharing [-1, Int64.minValue, 5]) (.failed (.overflow ',' .main)) [5] ∧
    Settles ∅ (sharing [0, 7, 5]) (.failed (.divisionByZero .main)) [5] ∧
    Settles ∅ (sharing [7]) (.failed (.stackUnderflow ',' .main)) [] := by
  have hexact (data : List Int64) :=
    arithmetic_is_exact ∅ (sharing data) _ _ ',' _ rfl rfl rfl rfl
  refine ⟨?_, ?_, ?_, ?_⟩
  · obtain ⟨-, hpush, -⟩ := (hexact [-2, 7, 5]).1 (-2) 7 [5] rfl
    have hfloor : ⌊((7 : Int64).toInt : ℚ) / (-2 : Int64).toInt⌋ = -4 :=
      Word.floor_div_eq (r := -1) rfl (.inr ⟨by decide, by decide⟩)
    obtain ⟨value, hvalue, hsettles⟩ := (hpush (by decide) (-4) hfloor.symm).1 (by decide)
    obtain rfl : value = -4 := Int64.toInt.inj hvalue
    exact hsettles
  · obtain ⟨-, hpush, -⟩ := (hexact [-1, Int64.minValue, 5]).1 (-1) Int64.minValue [5] rfl
    exact (hpush (by decide) _ Word.floor_minValue_div.symm).2 (by decide)
  · exact ((hexact [0, 7, 5]).1 0 7 [5] rfl).1 ⟨rfl, rfl⟩
  · exact (hexact [7]).2.2 (by decide)

end Machine

end Gridwalk
