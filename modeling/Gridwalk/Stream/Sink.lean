import Gridwalk.Stream.Error
import Gridwalk.Text.Utf8

/-!
# Output

A sink accepts bytes, up to a limit if it has one, and counts how often it is flushed. A write
that exceeds the limit is accepted as far as it fits and then fails.
-/

namespace Gridwalk.Stream

structure Sink where
  /-- How many bytes are accepted in all. -/
  limit : Option Nat
  /-- Whether a full sink accepts nothing instead of failing. -/
  stalls : Bool
  /-- The flushes that fail, counted from one. -/
  refused : List Nat
  written : Array UInt8
  flushes : Nat
  deriving Repr

namespace Sink

def unlimited : Sink := ⟨none, false, [], #[], 0⟩

def full (sink : Sink) : Error :=
  if sink.stalls then ⟨.other, "failed to write whole buffer"⟩ else ⟨.other, "sink full"⟩

def room (sink : Sink) (n : Nat) : Nat :=
  match sink.limit with
  | none => n
  | some limit => min n (limit - sink.written.size)

section
variable {sink : Sink} {bytes : List UInt8}

theorem room_le (sink : Sink) (n : Nat) : sink.room n ≤ n := by
  unfold room
  split <;> omega

theorem room_of_lt {n : Nat} (h : sink.room n < n) (k : Nat) : sink.room (n + k) = sink.room n := by
  cases hlimit : sink.limit with
  | none => simp [room, hlimit] at h
  | some limit =>
    simp only [room, hlimit] at h ⊢
    omega

theorem room_add (h : sink.room bytes.length = bytes.length) (n : Nat) :
    sink.room (bytes.length + n) =
      bytes.length + { sink with written := sink.written ++ bytes }.room n := by
  have hsize : (sink.written ++ bytes).size = sink.written.size + bytes.length := by
    simp [← Array.length_toList]
  cases hlimit : sink.limit with
  | none => simp [room, hlimit]
  | some limit =>
    simp only [room, hlimit, hsize] at h ⊢
    omega

end

def write (sink : Sink) (bytes : List UInt8) : Except Error Unit × Sink :=
  let n := sink.room bytes.length
  let next := { sink with written := sink.written ++ bytes.take n }
  if n < bytes.length then (.error sink.full, next) else (.ok (), next)

section
variable {sink : Sink} {bytes : List UInt8}

theorem write_of_room_eq (h : sink.room bytes.length = bytes.length) :
    sink.write bytes = (.ok (), { sink with written := sink.written ++ bytes }) := by
  simp [write, h]

theorem write_of_room_lt (h : sink.room bytes.length < bytes.length) :
    sink.write bytes = (.error sink.full,
      { sink with written := sink.written ++ bytes.take (sink.room bytes.length) }) := by
  simp [write, h]

theorem write_of_limit_eq_none (h : sink.limit = none) (bytes : List UInt8) :
    sink.write bytes = (.ok (), { sink with written := sink.written ++ bytes }) :=
  write_of_room_eq (by simp [room, h])

@[simp] theorem write_nil (sink : Sink) : sink.write [] = (.ok (), sink) := by
  rw [write_of_room_eq (Nat.le_zero.1 (sink.room_le 0))]
  simp

/-- To write bytes at once is to write them in turn, up to the first write that fails. -/
theorem write_append (sink : Sink) (bytes more : List UInt8) :
    sink.write (bytes ++ more) =
      match sink.write bytes with
      | (.error error, next) => (.error error, next)
      | (.ok (), next) => next.write more := by
  rcases Nat.lt_or_eq_of_le (sink.room_le bytes.length) with hfull | hfits
  · have hroom : sink.room (bytes ++ more).length = sink.room bytes.length := by
      rw [List.length_append, room_of_lt hfull]
    have hmore : sink.room (bytes ++ more).length < (bytes ++ more).length := by
      rw [hroom, List.length_append]
      omega
    rw [write_of_room_lt hfull, write_of_room_lt hmore, hroom,
      List.take_append_of_le_length (Nat.le_of_lt hfull)]
  · have hwritten (last : List UInt8) :
        sink.written ++ (bytes ++ last) = sink.written ++ bytes ++ last := by
      simp [← Array.toList_inj]
    rw [write_of_room_eq hfits]
    simp only [write, List.length_append, room_add hfits, Nat.add_lt_add_iff_left,
      List.take_length_add_append, hwritten]
    rfl

end

theorem toList_written_write (sink : Sink) (bytes : List UInt8) :
    (sink.write bytes).2.written.toList =
      sink.written.toList ++ bytes.take (sink.room bytes.length) := by
  unfold write
  simp only
  split <;> simp

def writeText (sink : Sink) (text : String) : Except Error Unit × Sink :=
  sink.write (Utf8.encodeText text)

def flush (sink : Sink) : Except Error Unit × Sink :=
  let n := sink.flushes + 1
  let next := { sink with flushes := n }
  if n ∈ sink.refused then (.error ⟨.other, "flush refused"⟩, next) else (.ok (), next)

end Sink

end Gridwalk.Stream
