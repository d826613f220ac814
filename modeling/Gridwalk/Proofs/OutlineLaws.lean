import Gridwalk.Outline

/-!
# What lines say

Each test of a line is read as the shape that it accepts: a border is a run of `#`, a fenced line
has a `#` at each end, an import has braces there, and an entry line fences a single `v` among `=`.
Then each stage of an open codebox is read as the lines that it accepts (`feed_bordered_ok`,
`feed_named_ok`, `feed_entered_ok`).
-/

namespace Gridwalk

namespace Line

def border (n : Nat) : List Char := List.replicate n '#'

def fence (cs : List Char) : List Char := '#' :: (cs ++ ['#'])

def braces (target : List Char) : List Char := '{' :: (target ++ ['}'])

def marker (before after : Nat) : List Char :=
  List.replicate before '=' ++ 'v' :: List.replicate after '='

section
variable {line cs target : List Char} {n k before after : Nat} {first last : Char}

theorem between?_eq_some_iff :
    between? first last line = some cs ↔ line = first :: (cs ++ [last]) := by
  cases line with
  | nil => simp [between?]
  | cons c rest =>
    simp only [between?]
    constructor
    · intro h
      split at h
      next hc =>
        obtain ⟨rfl, hlast⟩ := hc
        obtain ⟨inner, rfl⟩ := List.getLast?_eq_some_iff.1 hlast
        rw [List.dropLast_concat] at h
        rw [Option.some.inj h]
      next => nomatch h
    · intro h
      obtain ⟨rfl, rfl⟩ := List.cons.inj h
      simp

theorem interior?_eq_some_iff : interior? line = some cs ↔ line = fence cs :=
  between?_eq_some_iff

theorem importTarget?_eq_some_iff {unit : String} :
    importTarget? line = some unit ↔ line = braces unit.toList := by
  unfold importTarget?
  rw [Option.map_eq_some_iff]
  constructor
  · rintro ⟨cs, hcs, rfl⟩
    rw [between?_eq_some_iff.1 hcs, String.toList_ofList]
    rfl
  · intro h
    exact ⟨unit.toList, between?_eq_some_iff.2 h, String.ofList_toList⟩

@[simp] theorem importTarget?_braces :
    importTarget? (braces target) = some (String.ofList target) := by
  rw [importTarget?_eq_some_iff, String.toList_ofList]

theorem isBorder_iff : isBorder line = true ↔ ∃ n, 0 < n ∧ line = border n := by
  simp only [isBorder, Bool.and_eq_true, Bool.not_eq_true', List.isEmpty_eq_false_iff,
    List.all_eq_true, decide_eq_true_eq]
  constructor
  · rintro ⟨hne, hall⟩
    exact ⟨line.length, List.length_pos_iff.2 hne, List.eq_replicate_iff.2 ⟨rfl, hall⟩⟩
  · rintro ⟨n, hn, rfl⟩
    exact ⟨by simp [border, Nat.ne_of_gt hn], fun c hc => (List.mem_replicate.1 hc).2⟩

theorem markedColumn?_eq_some_iff :
    markedColumn? cs = some k ↔ ∃ after, cs = marker k after := by
  unfold markedColumn? marker
  constructor
  · intro h
    split at h
    next rest hd =>
      split at h
      next hall =>
        obtain rfl := Option.some.inj h
        refine ⟨rest.length, ?_⟩
        have hr : rest = List.replicate rest.length '=' :=
          List.eq_replicate_iff.2 ⟨rfl, by simpa using hall⟩
        have ht : cs.takeWhile (· = '=') = List.replicate (cs.takeWhile (· = '=')).length '=' :=
          List.eq_replicate_iff.2 ⟨rfl, fun c hc =>
            of_decide_eq_true (List.all_eq_true.1 List.all_takeWhile c hc)⟩
        rw [← hr, ← ht, ← hd, List.takeWhile_append_dropWhile]
      next => nomatch h
    next => nomatch h
  · rintro ⟨after, rfl⟩
    simp

theorem entry?_eq_some_iff : entry? line = some k ↔ ∃ after, line = fence (marker k after) := by
  unfold entry?
  rw [Option.bind_eq_some_iff]
  constructor
  · rintro ⟨cs, hcs, hk⟩
    obtain ⟨after, rfl⟩ := markedColumn?_eq_some_iff.1 hk
    exact ⟨after, interior?_eq_some_iff.1 hcs⟩
  · rintro ⟨after, h⟩
    exact ⟨_, interior?_eq_some_iff.2 h, markedColumn?_eq_some_iff.2 ⟨after, rfl⟩⟩

-- ---------------------------------------------------------------------------
-- Lines of a shape
-- ---------------------------------------------------------------------------

@[simp] theorem length_border : (border n).length = n := List.length_replicate

@[simp] theorem length_fence : (fence cs).length = cs.length + 2 := by simp [fence]

@[simp] theorem length_marker : (marker before after).length = before + 1 + after := by
  simp [marker]
  omega

theorem fence_inj {ds : List Char} (h : fence cs = fence ds) : cs = ds := by
  simpa [fence] using h

theorem fence_border : fence (border n) = border (n + 2) := by
  unfold fence border
  rw [← List.replicate_succ', ← List.replicate_succ]

theorem marker_inj {before' after' : Nat} (h : marker before after = marker before' after') :
    before = before' ∧ after = after' := by
  have hb : before = before' := by
    have hk := markedColumn?_eq_some_iff.2 ⟨after', h⟩
    rw [markedColumn?_eq_some_iff.2 ⟨after, rfl⟩] at hk
    exact Option.some.inj hk
  subst hb
  have hl := congrArg List.length h
  simp only [length_marker] at hl
  exact ⟨rfl, by omega⟩

@[simp] theorem interior?_fence : interior? (fence cs) = some cs := interior?_eq_some_iff.2 rfl

@[simp] theorem entry?_fence_marker : entry? (fence (marker before after)) = some before :=
  entry?_eq_some_iff.2 ⟨after, rfl⟩

@[simp] theorem isBorder_border : isBorder (border (n + 1)) = true :=
  isBorder_iff.2 ⟨n + 1, Nat.succ_pos n, rfl⟩

theorem isBorder_fence : isBorder (fence cs) = true ↔ cs = border cs.length := by
  rw [isBorder_iff]
  constructor
  · rintro ⟨n, -, h⟩
    have hn : n = cs.length + 2 := by simpa using (congrArg List.length h).symm
    rw [hn, ← fence_border] at h
    exact fence_inj h
  · intro h
    refine ⟨cs.length + 2, by omega, ?_⟩
    rw [← fence_border, ← h]

end

end Line

namespace Draft

open Line (border fence marker)

section
variable {width entry : Nat} {origin place : Location} {name : String} {above : List (List Char)}
  {line : List Char} {progress : Progress}

theorem feed_bordered_ok :
    feed ⟨width, origin, .bordered⟩ place line = .ok progress ↔
      ∃ label, line = fence label ∧ label.length + 2 = width ∧
        progress = .more ⟨width, origin,
          .named (String.ofList (Text.trimWhile (· = ' ') label))⟩ := by
  constructor
  · intro h
    simp only [feed] at h
    split at h
    next => nomatch h
    next hw =>
      split at h
      next => nomatch h
      next name hn =>
        obtain ⟨label, hl, rfl⟩ := Option.map_eq_some_iff.1 hn
        obtain rfl := Line.interior?_eq_some_iff.1 hl
        exact ⟨label, rfl, by simpa using hw, (Except.ok.inj h).symm⟩
  · rintro ⟨label, rfl, rfl, rfl⟩
    simp [feed, Line.name?]

theorem feed_named_ok :
    feed ⟨width, origin, .named name⟩ place line = .ok progress ↔
      ∃ before after, line = fence (marker before after) ∧ before + 1 + after + 2 = width ∧
        progress = .more ⟨width, origin, .entered name before []⟩ := by
  constructor
  · intro h
    simp only [feed] at h
    split at h
    next => nomatch h
    next hw =>
      split at h
      next => nomatch h
      next before hb =>
        obtain ⟨after, rfl⟩ := Line.entry?_eq_some_iff.1 hb
        exact ⟨before, after, rfl, by simpa using hw, (Except.ok.inj h).symm⟩
  · rintro ⟨before, after, rfl, rfl, rfl⟩
    simp [feed]

theorem feed_entered_ok :
    feed ⟨width, origin, .entered name entry above⟩ place line = .ok progress ↔
      (0 < width ∧ line = border width ∧
        progress = .closed ⟨name, width - 2, entry, above.reverse, origin⟩) ∨
      ∃ row, line = fence row ∧ row.length + 2 = width ∧ row ≠ border row.length ∧
        progress = .more ⟨width, origin, .entered name entry (row :: above)⟩ := by
  constructor
  · intro h
    simp only [feed] at h
    split at h
    next => nomatch h
    next hw =>
      split at h
      next hb =>
        obtain ⟨n, hn, rfl⟩ := Line.isBorder_iff.1 hb
        obtain rfl : n = width := by simpa using hw
        exact .inl ⟨hn, rfl, (Except.ok.inj h).symm⟩
      next hb =>
        split at h
        next => nomatch h
        next row hr =>
          obtain rfl := Line.interior?_eq_some_iff.1 hr
          exact .inr ⟨row, rfl, by simpa using hw, mt Line.isBorder_fence.2 hb,
            (Except.ok.inj h).symm⟩
  · rintro (⟨hw, rfl, rfl⟩ | ⟨row, rfl, rfl, hr, rfl⟩)
    · have hb : Line.isBorder (border width) = true := Line.isBorder_iff.2 ⟨width, hw, rfl⟩
      simp [feed, hb]
    · have hb : Line.isBorder (fence row) = false := by
        rw [← Bool.not_eq_true, Line.isBorder_fence]
        exact hr
      simp [feed, hb]

end

end Draft

namespace Outline

section
variable {unit : String} {n : Nat} {draft next : Draft} {box : Codebox} {error : LoadError}
  {line : List Char} {rest : List (List Char)}

theorem scan_of_more (h : draft.feed ⟨unit, n⟩ line = .ok (.more next)) :
    scan unit (some draft) n (line :: rest) = scan unit (some next) (n + 1) rest := by
  rw [scan, h]

theorem scan_of_closed (h : draft.feed ⟨unit, n⟩ line = .ok (.closed box)) :
    scan unit (some draft) n (line :: rest) = cons (.box box) (scan unit none (n + 1) rest) := by
  rw [scan, h]

theorem scan_of_error (h : draft.feed ⟨unit, n⟩ line = .error error) :
    scan unit (some draft) n (line :: rest) = ⟨[], some error⟩ := by
  rw [scan, h]

end

end Outline

end Gridwalk
