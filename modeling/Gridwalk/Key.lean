/-!
# Keys

A codebox is invoked by the first character of its name. The codebox without a name is the main
one. Keys are ordered: main first, then characters by code point.
-/

namespace Gridwalk

inductive Key
  | main
  | command (c : Char)
  deriving DecidableEq, Repr

namespace Key

def ofName (name : String) : Key :=
  match name.toList with
  | [] => .main
  | c :: _ => .command c

def isMain : Key → Bool
  | .main => true
  | .command _ => false

theorem isMain_ofName (name : String) : (ofName name).isMain ↔ name = "" := by
  rw [← String.toList_eq_nil_iff]
  unfold ofName
  cases name.toList with
  | nil => simp [isMain]
  | cons => simp [isMain]

def text : Key → String
  | .main => "main"
  | .command c => c.toString

def rank : Key → Nat
  | .main => 0
  | .command c => c.toNat + 1

theorem rank_inj {a b : Key} (h : a.rank = b.rank) : a = b := by
  cases a <;> cases b <;> simp_all [rank, Char.toNat_inj]

instance : LT Key := ⟨fun a b => a.rank < b.rank⟩

instance (a b : Key) : Decidable (a < b) := inferInstanceAs (Decidable (a.rank < b.rank))

theorem lt_trans {a b c : Key} (hab : a < b) (hbc : b < c) : a < c := Nat.lt_trans hab hbc

theorem ne_of_lt {a b : Key} (h : a < b) : a ≠ b :=
  fun he => Nat.lt_irrefl a.rank (he ▸ h : a.rank < a.rank)

theorem lt_of_not_lt_of_ne {a b : Key} (h : ¬ a < b) (hne : a ≠ b) : b < a :=
  Nat.lt_of_le_of_ne (Nat.le_of_not_lt h) fun he => hne (rank_inj he.symm)

end Key

end Gridwalk
