import Gridwalk.Stream.Script

/-!
# Reading characters

However input is cut into chunks, and however often reading is interrupted, reading character by
character gives the text with which the input begins, and then the end or an error
(`readChar_decodes`). No byte beyond a character is read.

`LongestText` names that text: the longest one whose encoding the bytes begin with. The bytes behind
it begin no character (`longestText_iff`).
-/

namespace Gridwalk

-- ---------------------------------------------------------------------------
-- The text at the beginning
-- ---------------------------------------------------------------------------

namespace Utf8

/-- The longest text whose encoding `bytes` begins with. -/
structure LongestText (bytes : List UInt8) (chars : List Char) : Prop where
  begins : chars.flatMap encode <+: bytes
  longest : ∀ other : List Char, other.flatMap encode <+: bytes →
    (other.flatMap encode).length ≤ (chars.flatMap encode).length

def BeginsNone (bytes : List UInt8) : Prop := ∀ c, ¬ encode c <+: bytes

section
variable {bytes rest : List UInt8} {chars other : List Char} {c d : Char}

theorem decode?_of_begins (h : encode c <+: bytes) : decode? bytes = some c := by
  obtain ⟨rest, rfl⟩ := h
  exact decode?_encode_append c rest

theorem beginsNone_of_decode? (h : decode? bytes = none) : BeginsNone bytes := by
  intro c hc
  rw [decode?_of_begins hc] at h
  cases h

/-- No encoding is a proper beginning of another, so texts are read off in one way. -/
theorem chars_prefix_of_bytes (hr : BeginsNone rest)
    (h : other.flatMap encode <+: chars.flatMap encode ++ rest) : other <+: chars := by
  induction chars generalizing other with
  | nil =>
    cases other with
    | nil => exact List.prefix_rfl
    | cons d ds =>
      simp only [List.flatMap_cons, List.flatMap_nil, List.nil_append] at h
      exact absurd ((List.prefix_append _ _).trans h) (hr d)
  | cons c cs ih =>
    cases other with
    | nil => exact List.nil_prefix
    | cons d ds =>
      simp only [List.flatMap_cons, List.append_assoc] at h
      have hd := decode?_of_begins ((List.prefix_append (encode d) _).trans h)
      rw [decode?_encode_append] at hd
      cases hd
      rw [List.prefix_append_right_inj] at h
      exact (List.prefix_cons_inj c).2 (ih h)

theorem longestText_iff :
    LongestText bytes chars ↔ ∃ rest, bytes = chars.flatMap encode ++ rest ∧ BeginsNone rest := by
  constructor
  · rintro ⟨⟨rest, rfl⟩, hlongest⟩
    refine ⟨rest, rfl, ?_⟩
    rintro c ⟨more, rfl⟩
    have hlonger := hlongest (chars ++ [c]) ⟨more, by simp⟩
    have hpos := length_encode_pos c
    simp only [List.flatMap_append, List.flatMap_singleton, List.length_append] at hlonger
    omega
  · rintro ⟨rest, rfl, hr⟩
    refine ⟨List.prefix_append _ _, ?_⟩
    intro other ho
    obtain ⟨more, rfl⟩ := chars_prefix_of_bytes hr ho
    simp

theorem exists_longestText (bytes : List UInt8) : ∃ chars, LongestText bytes chars := by
  -- a character takes at least one byte, so what is left behind it is shorter
  induction hn : bytes.length using Nat.strongRecOn generalizing bytes with
  | ind n ih =>
    by_cases hc : ∃ c, encode c <+: bytes
    · obtain ⟨c, rest, rfl⟩ := hc
      have hpos := length_encode_pos c
      rw [List.length_append] at hn
      obtain ⟨chars, hchars⟩ := ih rest.length (by omega) rest rfl
      obtain ⟨tail, rfl, hr⟩ := longestText_iff.1 hchars
      exact ⟨c :: chars, longestText_iff.2 ⟨tail, by simp, hr⟩⟩
    · exact ⟨[], longestText_iff.2 ⟨bytes, rfl, fun c h => hc ⟨c, h⟩⟩⟩

end

end Utf8

-- ---------------------------------------------------------------------------
-- Bytes
-- ---------------------------------------------------------------------------

namespace Stream

def Piece.isSteady : Piece → Bool
  | .chunk _ => true
  | .pause => false
  | .failure error => error.kind = .interrupted

namespace Script

/-- A script that delivers its bytes in some chunks or other and with any interruptions. -/
def Steady (script : Script) : Prop := ∀ piece ∈ script, piece.isSteady

instance (script : Script) : Decidable script.Steady :=
  inferInstanceAs (Decidable (∀ piece ∈ script, piece.isSteady))

section
variable {script : Script} {more rest : List UInt8} {byte : UInt8} {n : Nat}

theorem Steady.tail {piece : Piece} (h : Steady (piece :: script)) : script.Steady :=
  fun p hp => h p (List.mem_cons_of_mem _ hp)

theorem Steady.interrupted {error : Error} (h : Steady (.failure error :: script)) :
    error.kind = .interrupted := by
  simpa [Piece.isSteady] using h (.failure error) (by simp)

theorem next_of_bytes_nil (hs : script.Steady) (hb : script.bytes = []) :
    next script = (.ended, []) := by
  fun_induction next script with
  | case1 => rfl
  | case2 rest ih => exact ih hs.tail (by simpa [Script.bytes] using hb)
  | case3 => simp [Script.bytes] at hb
  | case4 => cases hs .pause (by simp)
  | case5 error rest hk ih => exact ih hs.tail (by simpa [Script.bytes] using hb)
  | case6 error rest hk => exact absurd hs.interrupted hk

theorem next_of_bytes_cons (hs : script.Steady) (hb : script.bytes = byte :: rest) :
    ∃ left, next script = (.byte byte, left) ∧ left.bytes = rest ∧ left.Steady := by
  fun_induction next script with
  | case1 => simp [Script.bytes] at hb
  | case2 rest ih => exact ih hs.tail (by simpa [Script.bytes] using hb)
  | case3 b bs pieces =>
    simp only [Script.bytes, List.flatMap_cons, List.cons_append, List.cons.injEq] at hb
    obtain ⟨rfl, rfl⟩ := hb
    refine ⟨_, rfl, by simp [Script.bytes], ?_⟩
    intro piece hp
    rcases List.mem_cons.1 hp with rfl | hp
    · rfl
    · exact hs.tail piece hp
  | case4 => cases hs .pause (by simp)
  | case5 error rest hk ih => exact ih hs.tail (by simpa [Script.bytes] using hb)
  | case6 error rest hk => exact absurd hs.interrupted hk

theorem following_of_bytes_append (hs : script.Steady) (hb : script.bytes = more ++ rest) :
    ∃ left, following more.length script = (.ok more, left) ∧ left.bytes = rest ∧ left.Steady := by
  induction more generalizing script with
  | nil => exact ⟨script, rfl, hb, hs⟩
  | cons byte more ih =>
    obtain ⟨left, hnext, hleft, hsteady⟩ := next_of_bytes_cons hs hb
    obtain ⟨left', hmore, hleft', hsteady'⟩ := ih hsteady hleft
    refine ⟨left', ?_, hleft', hsteady'⟩
    simp only [List.length_cons, following, hnext, hmore]

theorem following_of_length_lt (hs : script.Steady) (h : script.bytes.length < n) :
    (following n script).1 = .error .invalidText := by
  induction n generalizing script with
  | zero => simp at h
  | succ n ih =>
    cases hb : script.bytes with
    | nil => simp [following, next_of_bytes_nil hs hb]
    | cons byte rest =>
      obtain ⟨left, hnext, rfl, hsteady⟩ := next_of_bytes_cons hs hb
      have hshort := ih hsteady (by simpa [hb] using h)
      rcases hf : following n left with ⟨result, left'⟩
      rw [hf] at hshort
      cases hshort
      simp only [following, hnext, hf]

end

-- ---------------------------------------------------------------------------
-- Characters
-- ---------------------------------------------------------------------------

open Utf8 (encode)

section
variable {script : Script} {rest : List UInt8} {c : Char} {chars : List Char}

theorem readChar_of_bytes_nil (hs : script.Steady) (hb : script.bytes = []) :
    readChar script = (.ok none, []) := by
  simp [readChar, next_of_bytes_nil hs hb]

theorem readChar_of_encode (hs : script.Steady) (hb : script.bytes = encode c ++ rest) :
    ∃ left, readChar script = (.ok (some c), left) ∧ left.bytes = rest ∧ left.Steady := by
  cases he : encode c with
  | nil => simpa [he] using Utf8.length_encode_pos c
  | cons lead more =>
    rw [he, List.cons_append] at hb
    obtain ⟨left, hnext, hleft, hsteady⟩ := next_of_bytes_cons hs hb
    obtain ⟨left', hmore, hleft', hsteady'⟩ := following_of_bytes_append hsteady hleft
    have hdecode : Utf8.decode? (lead :: more) = some c :=
      Utf8.decode?_of_begins (he ▸ List.prefix_rfl)
    refine ⟨left', ?_, hleft', hsteady'⟩
    simp only [readChar, hnext, Utf8.following?_of_encode he, hmore, hdecode]

theorem readChar_of_beginsNone (hs : script.Steady) (hne : script.bytes ≠ [])
    (hr : Utf8.BeginsNone script.bytes) : (readChar script).1 = .error .invalidText := by
  cases hb : script.bytes with
  | nil => exact absurd hb hne
  | cons lead bytes =>
    obtain ⟨left, hnext, hleft, hsteady⟩ := next_of_bytes_cons hs hb
    cases hf : Utf8.following? lead with
    | none => simp only [readChar, hnext, hf]
    | some n =>
      by_cases hshort : left.bytes.length < n
      · have herror := following_of_length_lt hsteady hshort
        rcases hm : following n left with ⟨result, left'⟩
        rw [hm] at herror
        cases herror
        simp only [readChar, hnext, hf, hm]
      · obtain ⟨left', hmore, -, -⟩ := following_of_bytes_append hsteady
          (List.take_append_drop n left.bytes).symm
        rw [List.length_take, Nat.min_eq_left (Nat.not_lt.1 hshort)] at hmore
        cases hd : Utf8.decode? (lead :: left.bytes.take n) with
        | none => simp only [readChar, hnext, hf, hmore, hd]
        | some c =>
          obtain ⟨more, he⟩ := Utf8.exists_of_decode? hd
          have hread : encode c <+: lead :: left.bytes.take n := ⟨more, he.symm⟩
          have hlead : lead :: left.bytes.take n <+: script.bytes := by
            rw [hb, ← hleft, List.prefix_cons_inj]
            exact List.take_prefix n left.bytes
          exact absurd (hread.trans hlead) (hr c)

def afterReads : Nat → Script → Script
  | 0, script => script
  | n + 1, script => afterReads n (readChar script).2

theorem afterReads_of_bytes_nil (hs : script.Steady) (hb : script.bytes = []) (n : Nat) :
    (script.afterReads n).Steady ∧ (script.afterReads n).bytes = [] := by
  induction n generalizing script with
  | zero => exact ⟨hs, hb⟩
  | succ n ih =>
    rw [afterReads, readChar_of_bytes_nil hs hb]
    exact ih (by simp [Steady]) rfl

theorem afterReads_add (script : Script) (m n : Nat) :
    script.afterReads (m + n) = (script.afterReads m).afterReads n := by
  induction m generalizing script with
  | zero => rw [Nat.zero_add, afterReads]
  | succ m ih => rw [Nat.succ_add, afterReads, afterReads, ih]

theorem readChar_text (hs : script.Steady) (hb : script.bytes = chars.flatMap encode ++ rest) :
    (∀ j (hj : j < chars.length), (readChar (script.afterReads j)).1 = .ok (some chars[j])) ∧
    ∀ j ≤ chars.length, (script.afterReads j).Steady ∧
      (script.afterReads j).bytes = (chars.drop j).flatMap encode ++ rest := by
  induction chars generalizing script with
  | nil =>
    refine ⟨by simp, fun j hj => ?_⟩
    obtain rfl : j = 0 := by simpa using hj
    exact ⟨hs, hb⟩
  | cons c cs ih =>
    rw [List.flatMap_cons, List.append_assoc] at hb
    obtain ⟨left, hread, hleft, hsteady⟩ := readChar_of_encode hs hb
    obtain ⟨hreads, hleaves⟩ := ih hsteady hleft
    constructor
    · intro j hj
      cases j with
      | zero => simp [afterReads, hread]
      | succ j =>
        simp only [afterReads, hread, List.getElem_cons_succ]
        exact hreads j (by simpa using hj)
    · intro j hj
      cases j with
      | zero => exact ⟨hs, by simpa [afterReads] using hb⟩
      | succ j =>
        simp only [afterReads, hread, List.drop_succ_cons]
        exact hleaves j (by simpa using hj)

/-- Let `chars` be the longest text with which the bytes of a script begin, however they come. The
reads give its characters one by one, and when some have been read, the bytes left are those behind
them. If there are no bytes behind the text, all later reads give the end of the input; otherwise
the read behind the text fails. There is always such a text. -/
theorem readChar_decodes (hs : script.Steady) :
    (∃ chars, Utf8.LongestText script.bytes chars) ∧
    ∀ chars, Utf8.LongestText script.bytes chars →
      (∀ j (hj : j < chars.length), (readChar (script.afterReads j)).1 = .ok (some chars[j])) ∧
      (∀ j ≤ chars.length,
        script.bytes = (chars.take j).flatMap encode ++ (script.afterReads j).bytes) ∧
      (chars.flatMap encode = script.bytes →
        ∀ j ≥ chars.length, (readChar (script.afterReads j)).1 = .ok none) ∧
      (chars.flatMap encode ≠ script.bytes →
        (readChar (script.afterReads chars.length)).1 = .error .invalidText) := by
  refine ⟨Utf8.exists_longestText _, fun chars hlongest => ?_⟩
  obtain ⟨rest, hb, hr⟩ := Utf8.longestText_iff.1 hlongest
  obtain ⟨hreads, hleaves⟩ := readChar_text hs hb
  obtain ⟨hsteady, hleft⟩ := hleaves chars.length (Nat.le_refl _)
  rw [List.drop_length, List.flatMap_nil, List.nil_append] at hleft
  refine ⟨hreads, ?_, ?_, ?_⟩
  · intro j hj
    rw [(hleaves j hj).2, ← List.append_assoc, ← List.flatMap_append, List.take_append_drop, hb]
  · intro hall j hj
    obtain ⟨n, rfl⟩ := Nat.exists_eq_add_of_le hj
    have hnone : (script.afterReads chars.length).bytes = [] := by
      rw [hleft]
      simpa [hb] using hall
    obtain ⟨hsteady', hnone'⟩ := afterReads_of_bytes_nil hsteady hnone n
    rw [afterReads_add, readChar_of_bytes_nil hsteady' hnone']
  · intro hmore
    refine readChar_of_beginsNone hsteady ?_ (hleft ▸ hr)
    intro hnone
    rw [hb, ← hleft, hnone, List.append_nil] at hmore
    exact hmore rfl

end

def broken : Script :=
  [.chunk [0xC3], .failure ⟨.interrupted, "again"⟩, .chunk [0xA9, 0x41], .chunk [0xE2, 0x86]]

theorem readChar_decodes_broken :
    (readChar broken).1 = .ok (some 'é') ∧ (readChar (broken.afterReads 1)).1 = .ok (some 'A') ∧
      (broken.afterReads 2).bytes = [0xE2, 0x86] ∧
      (readChar (broken.afterReads 2)).1 = .error .invalidText := by
  have hsteady : broken.Steady := by decide
  have hbytes : broken.bytes = ['é', 'A'].flatMap encode ++ [0xE2, 0x86] := by decide
  have hlongest : Utf8.LongestText broken.bytes ['é', 'A'] :=
    Utf8.longestText_iff.2 ⟨_, hbytes, Utf8.beginsNone_of_decode? (by decide)⟩
  obtain ⟨hreads, hleaves, -, hrefuses⟩ := (readChar_decodes hsteady).2 _ hlongest
  refine ⟨hreads 0 (by simp), hreads 1 (by simp), ?_, hrefuses (by decide)⟩
  exact List.append_cancel_left ((hleaves 2 (by simp)).symm.trans hbytes)

end Script

end Stream

end Gridwalk
