import Gridwalk.Proofs.Drawing

/-!
# Parts of a unit

A unit with imports is a sequence of parts: drawn codeboxes, import lines and other lines. Reading
it line by line means to read part after part, up to the end of the text or to the first line that
no part can hold. So the outline of a unit has no fault exactly when the unit consists of parts
(`fault_scan_eq_none_iff`, and for whole texts `fault_ofText_eq_none_iff`), and its items are those
of the parts that the unit begins with (`mem_items_scan_iff`).
-/

namespace Gridwalk

open Line (braces)

inductive Part
  | drawn (segment : Segment)
  | imports (target : String)

namespace Part

def lines : Part → List (List Char)
  | .drawn segment => segment.lines
  | .imports target => [braces target.toList]

def allLines (parts : List Part) : List (List Char) := parts.flatMap lines

def item (unit : String) (n : Nat) : Part → Item
  | .drawn segment => segment.item unit n
  | .imports target => .imports ⟨unit, n⟩ target

def items (unit : String) : Nat → List Part → List Item
  | _, [] => []
  | n, part :: rest => part.item unit n :: items unit (n + part.lines.length) rest

@[simp] theorem allLines_nil : allLines [] = [] := rfl

@[simp] theorem allLines_cons (part : Part) (parts : List Part) :
    allLines (part :: parts) = part.lines ++ allLines parts :=
  List.flatMap_cons

@[simp] theorem allLines_append (parts others : List Part) :
    allLines (parts ++ others) = allLines parts ++ allLines others :=
  List.flatMap_append

theorem lines_ne_nil (part : Part) : part.lines ≠ [] := by
  cases part with
  | drawn segment => exact segment.lines_ne_nil
  | imports target => exact List.cons_ne_nil _ _

theorem mem_items_iff {unit : String} {n : Nat} {parts : List Part} {item : Item} :
    item ∈ items unit n parts ↔
      ∃ before part after, parts = before ++ part :: after ∧
        item = part.item unit (n + (allLines before).length) := by
  induction parts generalizing n with
  | nil => simp [items]
  | cons part parts ih =>
    rw [items, List.mem_cons, ih]
    constructor
    · rintro (rfl | ⟨before, other, after, rfl, rfl⟩)
      · exact ⟨[], part, parts, rfl, rfl⟩
      · refine ⟨part :: before, other, after, rfl, ?_⟩
        rw [Part.allLines_cons, List.length_append, Nat.add_assoc]
    · rintro ⟨before, other, after, he, rfl⟩
      cases before with
      | nil =>
        obtain ⟨rfl, -⟩ := List.cons.inj he
        exact .inl rfl
      | cons first before =>
        obtain ⟨rfl, rfl⟩ := List.cons.inj he
        refine .inr ⟨before, other, after, rfl, ?_⟩
        rw [Part.allLines_cons, List.length_append, Nat.add_assoc]

end Part

-- ---------------------------------------------------------------------------
-- Scanning parts
-- ---------------------------------------------------------------------------

theorem Draft.location?_of_feed {draft : Draft} {place : Location} {line : List Char}
    {error : LoadError} (h : draft.feed place line = .error error) :
    error.location? = some place := by
  unfold Draft.feed at h
  split at h
  next => rw [← Except.error.inj h]; rfl
  next =>
    split at h
    next =>
      split at h
      next => rw [← Except.error.inj h]; rfl
      next => nomatch h
    next =>
      split at h
      next => rw [← Except.error.inj h]; rfl
      next => nomatch h
    next =>
      split at h
      next => nomatch h
      next =>
        split at h
        next => rw [← Except.error.inj h]; rfl
        next => nomatch h

namespace Outline

section
variable {unit : String} {n : Nat} {lines rest : List (List Char)} {item : Item}

theorem scan_part (part : Part) (rest : List (List Char)) :
    scan unit none n (part.lines ++ rest) =
      cons (part.item unit n) (scan unit none (n + part.lines.length) rest) := by
  cases part with
  | drawn segment => exact scan_segment segment rest
  | imports target =>
    have hb : Line.isBorder (braces target.toList) = false := by simp [Line.isBorder, braces]
    have ht : Line.importTarget? (braces target.toList) = some target :=
      Line.importTarget?_eq_some_iff.2 rfl
    rw [Part.lines, List.cons_append, scan, if_neg (by simp [hb]), ht]
    rfl

theorem scan_parts (parts : List Part) (rest : List (List Char)) :
    scan unit none n (Part.allLines parts ++ rest) =
      ⟨Part.items unit n parts ++
          (scan unit none (n + (Part.allLines parts).length) rest).items,
        (scan unit none (n + (Part.allLines parts).length) rest).fault⟩ := by
  induction parts generalizing n with
  | nil => rfl
  | cons part parts ih =>
    rw [Part.allLines_cons, List.append_assoc, scan_part, ih, List.length_append, ← Nat.add_assoc]
    rfl

theorem exists_parts (unit : String) (n : Nat) (lines : List (List Char)) :
    ∃ (parts : List Part) (rest : List (List Char)), lines = Part.allLines parts ++ rest ∧
      (rest = [] ∨ ∃ error,
        scan unit none (n + (Part.allLines parts).length) rest = ⟨[], some error⟩) := by
  -- on the number of lines, since a part may take several
  induction hlen : lines.length using Nat.strongRecOn generalizing lines n with
  | ind length ih =>
    have onward : ∀ (part : Part) (rest : List (List Char)), lines = part.lines ++ rest →
        ∃ (parts : List Part) (rest : List (List Char)), lines = Part.allLines parts ++ rest ∧
          (rest = [] ∨ ∃ error,
            scan unit none (n + (Part.allLines parts).length) rest = ⟨[], some error⟩) := by
      intro part rest he
      have hlt : rest.length < length := by
        rw [← hlen, he, List.length_append]
        exact Nat.lt_add_of_pos_left (List.length_pos_iff.2 part.lines_ne_nil)
      obtain ⟨parts, rest', hrest, hstop⟩ := ih _ hlt (n + part.lines.length) rest rfl
      refine ⟨part :: parts, rest', ?_, ?_⟩
      · rw [he, hrest, Part.allLines_cons, List.append_assoc]
      · rwa [Part.allLines_cons, List.length_append, ← Nat.add_assoc]
    cases cut unit n lines with
    | ended => exact ⟨[], [], rfl, .inl rfl⟩
    | stopped stops => exact ⟨[], lines, rfl, .inr ⟨_, stops⟩⟩
    | @imports _ target rest =>
      refine onward (.imports (String.ofList target)) rest ?_
      rw [Part.lines, String.toList_ofList]
      rfl
    | @segment _ rest first _ => exact onward (.drawn first) rest rfl

theorem fault_scan_eq_none_iff :
    (scan unit none n lines).fault = none ↔ ∃ parts, lines = Part.allLines parts := by
  constructor
  · intro hf
    obtain ⟨parts, rest, rfl, rfl | ⟨error, hstop⟩⟩ := exists_parts unit n lines
    · exact ⟨parts, List.append_nil _⟩
    · rw [scan_parts, hstop] at hf
      nomatch hf
  · rintro ⟨parts, rfl⟩
    rw [← List.append_nil (Part.allLines parts), scan_parts]
    rfl

theorem mem_items_scan_iff :
    item ∈ (scan unit none n lines).items ↔
      ∃ (before : List Part) (part : Part) (rest : List (List Char)),
        lines = Part.allLines before ++ part.lines ++ rest ∧
        item = part.item unit (n + (Part.allLines before).length) := by
  constructor
  · intro hm
    obtain ⟨parts, rest, rfl, hstop⟩ := exists_parts unit n lines
    have hrest : (scan unit none (n + (Part.allLines parts).length) rest).items = [] := by
      rcases hstop with rfl | ⟨error, hstop⟩
      · rfl
      · rw [hstop]
    rw [scan_parts, hrest, List.append_nil] at hm
    obtain ⟨before, part, after, rfl, rfl⟩ := Part.mem_items_iff.1 hm
    exact ⟨before, part, Part.allLines after ++ rest, by simp, rfl⟩
  · rintro ⟨before, part, rest, rfl, rfl⟩
    rw [List.append_assoc, scan_parts, scan_part]
    exact List.mem_append_right _ List.mem_cons_self

theorem location?_of_fault_scan {draft : Option Draft} {error : LoadError}
    (h : (scan unit draft n lines).fault = some error) : ∃ place, error.location? = some place := by
  fun_induction scan unit draft n lines with
  | case1 => cases h
  | case2 =>
    obtain rfl := Option.some.inj h
    exact ⟨_, rfl⟩
  | case3 draft n line rest other hfeed =>
    obtain rfl : other = error := Option.some.inj h
    exact ⟨_, Draft.location?_of_feed hfeed⟩
  | case4 _ _ _ _ _ _ ih | case6 _ _ _ _ ih => exact ih h
  | case5 _ _ _ _ _ _ ih | case7 _ _ _ _ _ _ ih | case8 _ _ _ _ _ ih => exact ih h

end

section
variable {unit text target : String}

theorem fault_ofText_eq_none_iff :
    (ofText unit text).fault = none ↔ ∃ parts, Text.lines text = Part.allLines parts :=
  fault_scan_eq_none_iff

theorem mem_targets_ofText_iff :
    target ∈ (ofText unit text).targets ↔
      ∃ before rest,
        Text.lines text = Part.allLines before ++ braces target.toList :: rest := by
  unfold targets ofText
  simp only [List.mem_filterMap, mem_items_scan_iff]
  constructor
  · rintro ⟨_, ⟨before, part, rest, hlines, rfl⟩, htarget⟩
    cases part with
    | drawn segment => cases segment <;> nomatch htarget
    | imports other =>
      obtain rfl := Option.some.inj htarget
      exact ⟨before, rest, by simpa [Part.lines] using hlines⟩
  · rintro ⟨before, rest, hlines⟩
    exact ⟨_, ⟨before, .imports target, rest, by simpa [Part.lines] using hlines, rfl⟩, rfl⟩

theorem exists_stray_ofText_iff {blank : Bool} :
    (∃ place, .stray place blank ∈ (ofText unit text).items) ↔
      ∃ before line rest, Text.lines text = Part.allLines before ++ line :: rest ∧
        Line.IsFiller line ∧ line.all Text.isBlank = blank := by
  unfold ofText
  simp only [mem_items_scan_iff]
  constructor
  · rintro ⟨place, before, part, rest, hlines, hitem⟩
    cases part with
    | imports target => nomatch hitem
    | drawn segment =>
      cases segment with
      | box drawing => nomatch hitem
      | filler line plain =>
        obtain ⟨-, rfl⟩ := Item.stray.inj hitem
        exact ⟨before, line, rest, by simpa [Part.lines, Segment.lines] using hlines, plain, rfl⟩
  · rintro ⟨before, line, rest, hlines, plain, rfl⟩
    exact ⟨_, before, .drawn (.filler line plain), rest,
      by simpa [Part.lines, Segment.lines] using hlines, rfl⟩

end

end Outline

end Gridwalk
