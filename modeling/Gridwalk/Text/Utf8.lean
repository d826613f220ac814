/-!
# UTF-8

Characters as bytes. A first byte says how many bytes follow it; the bytes `C0`, `C1`, `F5` to
`FF` and the continuation bytes `80` to `BF` begin no character.

Decoding undoes encoding whatever follows (`decode?_encode_append`), and what it reads is the
encoding of the character it gives (`exists_of_decode?`).
-/

namespace Gridwalk.Utf8

def encode (c : Char) : List UInt8 := String.utf8EncodeChar c

def encodeText (text : String) : List UInt8 := text.toList.flatMap encode

def following? (lead : UInt8) : Option Nat :=
  if lead ≤ 0x7F then some 0
  else if 0xC2 ≤ lead ∧ lead ≤ 0xDF then some 1
  else if 0xE0 ≤ lead ∧ lead ≤ 0xEF then some 2
  else if 0xF0 ≤ lead ∧ lead ≤ 0xF4 then some 3
  else none

def decode? (bytes : List UInt8) : Option Char := bytes.toByteArray.utf8DecodeChar? 0

def decodeText? (bytes : List UInt8) : Option String := String.fromUTF8? bytes.toByteArray

theorem decode?_encode_append (c : Char) (rest : List UInt8) :
    decode? (encode c ++ rest) = some c := by
  unfold decode? encode
  rw [List.toByteArray_append]
  exact ByteArray.utf8DecodeChar?_utf8EncodeChar_append

theorem exists_of_decode? {bytes : List UInt8} {c : Char} (h : decode? bytes = some c) :
    ∃ rest, bytes = encode c ++ rest := by
  obtain ⟨rest, he⟩ := ByteArray.exists_of_utf8DecodeChar?_eq_some h
  refine ⟨rest.data.toList, ?_⟩
  have := congrArg (fun b => b.data.toList) he
  simpa [encode] using this

theorem length_encode_pos (c : Char) : 0 < (encode c).length := by
  simp [encode, Char.utf8Size_pos]

theorem following?_of_encode {c : Char} {lead : UInt8} {more : List UInt8}
    (h : encode c = lead :: more) : following? lead = some more.length := by
  have hmax : c.val.toNat ≤ 0x10ffff := by
    have hv := c.valid
    unfold UInt32.isValidChar Nat.isValidChar at hv
    omega
  unfold encode String.utf8EncodeChar at h
  generalize c.val.toNat = v at h hmax
  simp only at h
  repeat' split at h
  all_goals
    obtain ⟨rfl, rfl⟩ := List.cons.inj h
    simp only [following?, UInt8.le_iff_toNat_le, UInt8.toNat_ofNat', UInt8.reduceToNat]
    grind

end Gridwalk.Utf8
