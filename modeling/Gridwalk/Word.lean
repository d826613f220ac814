/-!
# Words

Values and coordinates are signed 64-bit integers. Arithmetic on them is exact: a result outside
the range is refused by `ofInt?` and moved to the nearer end of the range by `saturate`. Division
rounds down (`floorDiv?`), while that of machine words rounds towards zero.
-/

namespace Gridwalk.Word

def ofInt? (n : Int) : Option Int64 :=
  if -0x8000000000000000 ≤ n ∧ n < 0x8000000000000000 then some (Int64.ofInt n) else none

/-- The quotient rounded towards zero. There is none for a zero divisor, nor for the one quotient of
words that is no word. -/
def quotient? (b a : Int64) : Option Int64 :=
  if a = 0 ∨ b = Int64.minValue ∧ a = -1 then none else some (b / a)

/-- What the quotient leaves, with the sign of `b`; where there is no quotient it is refused too. -/
def remainder? (b a : Int64) : Option Int64 := (quotient? b a).map fun _ => b % a

/-- The quotient rounded down: one less than the quotient rounded towards zero if there is a
remainder whose sign is not that of `a`. -/
def floorDiv? (b a : Int64) : Option Int64 := do
  let quotient ← quotient? b a
  let remainder ← remainder? b a
  if remainder ≠ 0 ∧ ¬(remainder < 0 ↔ a < 0) then ofInt? (quotient.toInt - 1) else some quotient

def saturate (n : Int) : Int64 := Int64.ofIntClamp n

theorem toInt_of_ofInt? {n : Int} {w : Int64} (h : ofInt? n = some w) : w.toInt = n := by
  unfold ofInt? at h
  split at h
  next hr =>
    obtain rfl := Option.some.inj h
    exact Int64.toInt_ofInt_of_le hr.1 hr.2
  next => nomatch h

@[simp] theorem ofInt?_toInt (w : Int64) : ofInt? w.toInt = some w := by
  rw [ofInt?, if_pos ⟨w.le_toInt, w.toInt_lt⟩, Int64.ofInt_toInt]

theorem ofInt?_eq_none_iff {n : Int} :
    ofInt? n = none ↔ n < -0x8000000000000000 ∨ 0x8000000000000000 ≤ n := by
  unfold ofInt?
  split <;> simp <;> omega

theorem toInt_saturate {n : Int} (h : -0x8000000000000000 ≤ n ∧ n < 0x8000000000000000) :
    (saturate n).toInt = n :=
  Int64.toInt_ofIntClamp h.1 (Int.le_of_lt_add_one h.2)

@[simp] theorem saturate_toInt (w : Int64) : saturate w.toInt = w :=
  Int64.toInt.inj (toInt_saturate ⟨w.le_toInt, w.toInt_lt⟩)

def ofChar (c : Char) : Int64 := Int64.ofNat c.toNat

def toChar? (w : Int64) : Option Char :=
  match w.toInt with
  | .ofNat n => if n.isValidChar then some (Char.ofNat n) else none
  | .negSucc _ => none

theorem toInt_ofChar (c : Char) : (ofChar c).toInt = c.toNat := by
  have hv := c.valid
  unfold UInt32.isValidChar Nat.isValidChar at hv
  exact Int64.toInt_ofNat_of_lt (show c.val.toNat < 2 ^ 63 by omega)

@[simp] theorem toChar?_ofChar (c : Char) : toChar? (ofChar c) = some c := by
  unfold toChar?
  rw [toInt_ofChar]
  have hv : c.toNat.isValidChar := c.valid
  simp [hv]

theorem toNat_ofNat {n : Nat} (h : n.isValidChar) : (Char.ofNat n).toNat = n := by
  rw [show Char.ofNat n = Char.ofNatAux n h from dif_pos h]
  rfl

theorem toChar?_eq_some_iff {w : Int64} {c : Char} : toChar? w = some c ↔ w = ofChar c := by
  refine ⟨fun h => ?_, fun h => h ▸ toChar?_ofChar c⟩
  cases hw : w.toInt with
  | negSucc n => simp [toChar?, hw] at h
  | ofNat n =>
    by_cases hv : n.isValidChar
    · obtain rfl : Char.ofNat n = c := by simpa [toChar?, hw, hv] using h
      apply Int64.toInt.inj
      rw [toInt_ofChar, hw, toNat_ofNat hv]
      rfl
    · simp [toChar?, hw, hv] at h

def showAll (words : List Int64) : String :=
  "[" ++ ", ".intercalate (words.map fun w => toString w.toInt) ++ "]"

end Gridwalk.Word
