import Gridwalk.Proofs.UnitParts

/-!
# Codeboxes being read

What a line means depends on whether a codebox is open and on how much of it has been read.
`Outline.Reads` says what is open after some lines, one line at a time. The lines so far are then
complete parts, followed by the lines of the open codebox so far (`Reads.standing`): it has a border
of the draft's width, a label and an entry as wide as that, and rows of which none is a border. So
the line that closes a codebox completes a drawing (`Opening.closed`), and a line that cannot follow
breaks the rule that is reported (`Opening.misfit`).

Faults and codeboxes of an outline are faults and closings of this kind (`exists_reads_of_fault`,
`closes_of_mem_items`).
-/

namespace Gridwalk

open Line (border fence marker)

-- ---------------------------------------------------------------------------
-- The lines of an open codebox
-- ---------------------------------------------------------------------------

inductive Opening (width : Nat) : Draft.Stage → List (List Char) → Prop
  | bordered (positive : 0 < width) : Opening width .bordered [border width]
  | named {label} (label_width : label.length + 2 = width) :
    Opening width (.named (String.ofList (Text.trimWhile (· = ' ') label)))
      [border width, fence label]
  | entered {label before after above} (label_width : label.length + 2 = width)
    (entry_width : before + 1 + after + 2 = width)
    (row_width : ∀ row ∈ above, row.length + 2 = width)
    (row_open : ∀ row ∈ above, row ≠ border row.length) :
    Opening width (.entered (String.ofList (Text.trimWhile (· = ' ') label)) before above)
      (border width :: fence label :: fence (marker before after) :: above.reverse.map fence)

/-- What is wrong with a line that follows the lines `opened` of a codebox, whose border has `width`
characters. -/
inductive Misfit (width : Nat) (opened : List (List Char)) (place : Location) (line : List Char) :
    LoadError → Prop
  | width (differs : line.length ≠ width) :
    Misfit width opened place line (.widthMismatch place width line.length)
  | name (second : opened.length = 1) (wide : line.length = width)
    (unfenced : ∀ cs, line ≠ fence cs) : Misfit width opened place line (.badName place)
  | entry (third : opened.length = 2) (wide : line.length = width)
    (unmarked : ∀ before after, line ≠ fence (marker before after)) :
    Misfit width opened place line (.badEntry place)
  | row (later : 3 ≤ opened.length) (wide : line.length = width)
    (unfenced : ∀ cs, line ≠ fence cs) : Misfit width opened place line (.badRow place)

theorem Line.ne_fence_of_interior? {line : List Char} (h : Line.interior? line = none)
    (cs : List Char) : line ≠ fence cs := by
  rintro rfl
  rw [Line.interior?_fence] at h
  nomatch h

section
variable {width : Nat} {origin place : Location} {stage : Draft.Stage} {next : Draft}
  {line : List Char} {opened : List (List Char)} {box : Codebox} {error : LoadError}

theorem Opening.more (h : Opening width stage opened)
    (hf : Draft.feed ⟨width, origin, stage⟩ place line = .ok (.more next)) :
    next.origin = origin ∧ Opening next.width next.stage (opened ++ [line]) := by
  cases h with
  | bordered =>
    obtain ⟨label, rfl, hl, hn⟩ := Draft.feed_bordered_ok.1 hf
    obtain rfl := Draft.Progress.more.inj hn
    exact ⟨rfl, .named hl⟩
  | named hl =>
    obtain ⟨before, after, rfl, hm, hn⟩ := Draft.feed_named_ok.1 hf
    obtain rfl := Draft.Progress.more.inj hn
    exact ⟨rfl, .entered hl hm (fun _ h => nomatch h) (fun _ h => nomatch h)⟩
  | @entered label before after above hl hm hr ho =>
    rcases Draft.feed_entered_ok.1 hf with ⟨-, -, hn⟩ | ⟨row, rfl, hw, hopen, hn⟩
    · nomatch hn
    · obtain rfl := Draft.Progress.more.inj hn
      have hrows : Opening width _ _ := .entered hl hm (List.forall_mem_cons.2 ⟨hw, hr⟩)
        (List.forall_mem_cons.2 ⟨hopen, ho⟩)
      rw [List.reverse_cons, List.map_append] at hrows
      exact ⟨rfl, hrows⟩

theorem Opening.closed (h : Opening width stage opened)
    (hf : Draft.feed ⟨width, origin, stage⟩ place line = .ok (.closed box)) :
    ∃ drawing : Drawing, opened ++ [line] = drawing.lines ∧ width = drawing.width + 2 ∧
      box = drawing.codebox origin := by
  cases h with
  | bordered =>
    obtain ⟨label, -, -, hn⟩ := Draft.feed_bordered_ok.1 hf
    cases hn
  | named =>
    obtain ⟨before, after, -, -, hn⟩ := Draft.feed_named_ok.1 hf
    cases hn
  | @entered label before after above hl hm hr ho =>
    rcases Draft.feed_entered_ok.1 hf with ⟨-, rfl, hn⟩ | ⟨row, -, -, -, hn⟩
    · subst hm
      obtain rfl := Draft.Progress.closed.inj hn
      have hrows : ∀ row ∈ above.reverse, row.length = before + 1 + after := by
        intro row hrow
        have hwidth := hr row (List.mem_reverse.1 hrow)
        omega
      refine ⟨⟨label, before, after, above.reverse, by omega, hrows, ?_⟩, ?_, rfl, rfl⟩
      · intro row hrow
        rw [← hrows row hrow]
        exact ho row (List.mem_reverse.1 hrow)
      · simp [Drawing.lines, Drawing.width]
    · cases hn

theorem Opening.misfit (h : Opening width stage opened)
    (hf : Draft.feed ⟨width, origin, stage⟩ place line = .error error) :
    Misfit width opened place line error := by
  unfold Draft.feed at hf
  split at hf
  next hw =>
    obtain rfl := Except.error.inj hf
    exact .width hw
  next hw =>
    have wide : line.length = width := by simpa using hw
    cases h with
    | bordered =>
      simp only [Line.name?] at hf
      cases hi : Line.interior? line with
      | some cs => simp [hi] at hf
      | none =>
        obtain rfl : .badName place = error := by simpa [hi] using hf
        exact .name rfl wide (Line.ne_fence_of_interior? hi)
    | named =>
      cases he : Line.entry? line with
      | some entry => simp [he] at hf
      | none =>
        obtain rfl : .badEntry place = error := by simpa [he] using hf
        refine .entry rfl wide ?_
        rintro before after rfl
        rw [Line.entry?_fence_marker] at he
        cases he
    | entered =>
      cases hb : Line.isBorder line with
      | true => simp [hb] at hf
      | false =>
        cases hi : Line.interior? line with
        | some cs => simp [hb, hi] at hf
        | none =>
          obtain rfl : .badRow place = error := by simpa [hb, hi] using hf
          exact .row (by simp) wide (Line.ne_fence_of_interior? hi)

end

-- ---------------------------------------------------------------------------
-- Line by line
-- ---------------------------------------------------------------------------

namespace Outline

def readLine (unit : String) (n : Nat) (line : List Char) :
    (draft : Option Draft) → Except LoadError (Option Draft × Option Item)
  | some draft =>
    match draft.feed ⟨unit, n⟩ line with
    | .error error => .error error
    | .ok (.more draft) => .ok (some draft, none)
    | .ok (.closed box) => .ok (none, some (.box box))
  | none =>
    if Line.isBorder line then .ok (some ⟨line.length, ⟨unit, n⟩, .bordered⟩, none)
    else
      match Line.importTarget? line with
      | some target => .ok (none, some (.imports ⟨unit, n⟩ target))
      | none => .ok (none, some (.stray ⟨unit, n⟩ (line.all Text.isBlank)))

/-- `Reads unit before draft`: reading a unit that begins with the lines `before` comes past them,
and then `draft` is open. -/
inductive Reads (unit : String) : (before : List (List Char)) → Option Draft → Prop
  | top : Reads unit [] none
  | line {before draft line next item} (above : Reads unit before draft)
    (read : readLine unit (before.length + 1) line draft = .ok (next, item)) :
    Reads unit (before ++ [line]) next

/-- A line of a unit with these lines closes the codebox `draft`, which amounts to `box`. -/
def Closes (unit : String) (lines : List (List Char)) (draft : Draft) (box : Codebox) : Prop :=
  ∃ before line rest, lines = before ++ line :: rest ∧ Reads unit before (some draft) ∧
    draft.feed ⟨unit, before.length + 1⟩ line = .ok (.closed box)

section
variable {unit : String} {n : Nat} {line : List Char} {before rest lines : List (List Char)}
  {draft next : Option Draft} {item : Option Item} {error : LoadError} {box : Codebox}

theorem scan_cons :
    scan unit draft n (line :: rest) =
      match readLine unit n line draft with
      | .error error => ⟨[], some error⟩
      | .ok (next, item) =>
        ⟨item.toList ++ (scan unit next (n + 1) rest).items, (scan unit next (n + 1) rest).fault⟩ := by
  cases draft with
  | some draft =>
    simp only [scan, readLine]
    rcases draft.feed ⟨unit, n⟩ line with error | (next | box) <;> rfl
  | none =>
    simp only [scan, readLine]
    split
    next => rfl
    next => cases Line.importTarget? line <;> rfl

theorem readLine_error (h : readLine unit n line draft = .error error) :
    ∃ draft', draft = some draft' ∧ draft'.feed ⟨unit, n⟩ line = .error error := by
  cases draft with
  | some draft =>
    simp only [readLine] at h
    split at h
    next hf => exact ⟨draft, rfl, hf.trans (congrArg _ (Except.error.inj h))⟩
    next => nomatch h
    next => nomatch h
  | none =>
    simp only [readLine] at h
    split at h
    next => nomatch h
    next => split at h <;> nomatch h

theorem readLine_box (h : readLine unit n line draft = .ok (next, some (.box box))) :
    ∃ draft', draft = some draft' ∧ draft'.feed ⟨unit, n⟩ line = .ok (.closed box) := by
  cases draft with
  | some draft =>
    simp only [readLine] at h
    split at h
    next => nomatch h
    next => nomatch h
    next hf =>
      obtain ⟨-, rfl⟩ : _ ∧ _ = box := by simpa using h
      exact ⟨draft, rfl, hf⟩
  | none =>
    simp only [readLine] at h
    split at h
    next => nomatch h
    next => split at h <;> nomatch h

/-- A fault comes from a line that cannot follow in an open codebox, or from one that stays open. -/
theorem exists_reads_of_fault (h : Reads unit before draft)
    (hf : (scan unit draft (before.length + 1) lines).fault = some error) :
    ∃ above draft', Reads unit above (some draft') ∧
      ((before ++ lines = above ∧ error = .unterminated draft'.origin) ∨
        ∃ line rest, before ++ lines = above ++ line :: rest ∧
          draft'.feed ⟨unit, above.length + 1⟩ line = .error error) := by
  induction lines generalizing before draft with
  | nil =>
    cases draft with
    | none => nomatch hf
    | some draft =>
      refine ⟨before, draft, h, .inl ⟨List.append_nil _, ?_⟩⟩
      exact (Option.some.inj hf).symm
  | cons line rest ih =>
    rw [scan_cons] at hf
    split at hf
    next other hr =>
      obtain rfl : other = error := Option.some.inj hf
      obtain ⟨draft', rfl, hfeed⟩ := readLine_error hr
      exact ⟨before, draft', h, .inr ⟨line, rest, rfl, hfeed⟩⟩
    next next item hr =>
      have hf' : (scan unit next ((before ++ [line]).length + 1) rest).fault = some error := by
        rw [List.length_append]
        exact hf
      have hlines := ih (.line h hr) hf'
      rwa [List.append_assoc] at hlines

theorem closes_of_mem_items (h : Reads unit before draft)
    (hm : .box box ∈ (scan unit draft (before.length + 1) lines).items) :
    ∃ draft', Closes unit (before ++ lines) draft' box := by
  induction lines generalizing before draft with
  | nil => cases draft <;> nomatch hm
  | cons line rest ih =>
    rw [scan_cons] at hm
    split at hm
    next => nomatch hm
    next next item hr =>
      rcases List.mem_append.1 hm with hm | hm
      · obtain rfl : item = some (.box box) := by simpa using hm
        obtain ⟨draft', rfl, hfeed⟩ := readLine_box hr
        exact ⟨draft', before, line, rest, rfl, h, hfeed⟩
      · have hm' : .box box ∈ (scan unit next ((before ++ [line]).length + 1) rest).items := by
          rw [List.length_append]
          exact hm
        have hcloses := ih (.line h hr) hm'
        rwa [List.append_assoc] at hcloses

-- ---------------------------------------------------------------------------
-- What has been read
-- ---------------------------------------------------------------------------

def Standing (unit : String) (before : List (List Char)) : Option Draft → Prop
  | none => ∃ parts, before = Part.allLines parts
  | some draft => ∃ parts opened, before = Part.allLines parts ++ opened ∧
    draft.origin = ⟨unit, (Part.allLines parts).length + 1⟩ ∧
    Opening draft.width draft.stage opened

theorem Standing.outside (h : Standing unit before none)
    (hr : readLine unit (before.length + 1) line none = .ok (next, item)) :
    Standing unit (before ++ [line]) next := by
  obtain ⟨parts, rfl⟩ := h
  simp only [readLine] at hr
  split at hr
  next hb =>
    obtain ⟨rfl, -⟩ := Prod.mk.inj (Except.ok.inj hr)
    obtain ⟨width, hpos, rfl⟩ := Line.isBorder_iff.1 hb
    refine ⟨parts, [border width], rfl, rfl, ?_⟩
    rw [Line.length_border]
    exact .bordered hpos
  next hb =>
    split at hr
    next target ht =>
      obtain ⟨rfl, -⟩ := Prod.mk.inj (Except.ok.inj hr)
      refine ⟨parts ++ [.imports target], ?_⟩
      rw [Line.importTarget?_eq_some_iff.1 ht]
      simp [Part.lines]
    next ht =>
      obtain ⟨rfl, -⟩ := Prod.mk.inj (Except.ok.inj hr)
      have plain : Line.IsFiller line := Line.isFiller_iff.2 ⟨by simpa using hb, ht⟩
      refine ⟨parts ++ [.drawn (.filler line plain)], ?_⟩
      simp [Part.lines, Segment.lines]

theorem Standing.inside {draft : Draft} (h : Standing unit before (some draft))
    (hr : readLine unit (before.length + 1) line (some draft) = .ok (next, item)) :
    Standing unit (before ++ [line]) next := by
  obtain ⟨parts, opened, rfl, horigin, hopening⟩ := h
  simp only [readLine] at hr
  split at hr
  next => nomatch hr
  next more hf =>
    obtain ⟨rfl, -⟩ := Prod.mk.inj (Except.ok.inj hr)
    obtain ⟨hsame, hmore⟩ := hopening.more hf
    exact ⟨parts, opened ++ [line], List.append_assoc .., hsame.trans horigin, hmore⟩
  next box hf =>
    obtain ⟨rfl, -⟩ := Prod.mk.inj (Except.ok.inj hr)
    obtain ⟨drawing, hlines, -, -⟩ := hopening.closed hf
    refine ⟨parts ++ [.drawn (.box drawing)], ?_⟩
    simp [Part.lines, Segment.lines, ← hlines]

theorem Reads.standing (h : Reads unit before draft) : Standing unit before draft := by
  induction h with
  | top => exact ⟨[], rfl⟩
  | @line _ draft _ _ _ _ read ih =>
    cases draft with
    | none => exact ih.outside read
    | some draft => exact ih.inside read

theorem Closes.drawn {draft : Draft} (h : Closes unit lines draft box) :
    ∃ (parts : List Part) (drawing : Drawing) (rest : List (List Char)),
      lines = Part.allLines parts ++ drawing.lines ++ rest ∧ draft.width = drawing.width + 2 ∧
      box = drawing.codebox ⟨unit, (Part.allLines parts).length + 1⟩ := by
  obtain ⟨before, line, rest, rfl, hreads, hf⟩ := h
  obtain ⟨parts, opened, rfl, horigin, hopening⟩ := hreads.standing
  obtain ⟨drawing, hlines, hwidth, rfl⟩ := hopening.closed hf
  refine ⟨parts, drawing, rest, ?_, hwidth, by rw [horigin]⟩
  rw [← hlines]
  simp

end

end Outline

end Gridwalk
