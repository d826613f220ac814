import Gridwalk.Proofs.Inlining
import Gridwalk.Proofs.OutlineLaws

/-!
# What is drawn is what is loaded

A unit without imports is a sequence of drawn codeboxes and of other lines, its segments. Lines are
cut into segments in at most one way (`segments_unique`). A lenient load accepts exactly the units
that can be cut so, and it registers each drawn codebox in turn, at the line of its opening border
(`lenient_load_iff_drawn`).
-/

namespace Gridwalk

open Line (border fence braces marker)

-- ---------------------------------------------------------------------------
-- Segments
-- ---------------------------------------------------------------------------

/-- A codebox as it is drawn: what stands between the fences of its lines. No row looks like a
border, which would close the codebox. -/
@[ext] structure Drawing where
  label : List Char
  before : Nat
  after : Nat
  rows : List (List Char)
  label_length : label.length = before + 1 + after
  rows_length : ∀ row ∈ rows, row.length = before + 1 + after
  rows_open : ∀ row ∈ rows, row ≠ border (before + 1 + after)

namespace Drawing

def width (drawing : Drawing) : Nat := drawing.before + 1 + drawing.after

def lines (drawing : Drawing) : List (List Char) :=
  border (drawing.width + 2) :: fence drawing.label ::
    fence (marker drawing.before drawing.after) ::
    (drawing.rows.map fence ++ [border (drawing.width + 2)])

def codebox (drawing : Drawing) (origin : Location) : Codebox where
  name := String.ofList (Text.trimWhile (· = ' ') drawing.label)
  width := drawing.width
  entry := drawing.before
  rows := drawing.rows
  origin := origin

theorem wellFormed_codebox (drawing : Drawing) (origin : Location) :
    (drawing.codebox origin).WellFormed :=
  ⟨show drawing.before < drawing.before + 1 + drawing.after by omega, drawing.rows_length⟩

end Drawing

def Line.IsFiller (line : List Char) : Prop :=
  (∀ n, 0 < n → line ≠ border n) ∧ ∀ target, line ≠ braces target

theorem Line.isFiller_iff {line : List Char} :
    Line.IsFiller line ↔ Line.isBorder line = false ∧ Line.importTarget? line = none := by
  constructor
  · rintro ⟨hborder, himport⟩
    refine ⟨Bool.eq_false_iff.2 ?_, Option.eq_none_iff_forall_ne_some.2 ?_⟩
    · intro hb
      obtain ⟨n, hn, he⟩ := Line.isBorder_iff.1 hb
      exact hborder n hn he
    · intro target ht
      exact himport _ (Line.importTarget?_eq_some_iff.1 ht)
  · rintro ⟨hb, ht⟩
    constructor
    · intro n hn he
      rw [Line.isBorder_iff.2 ⟨n, hn, he⟩] at hb
      nomatch hb
    · intro target he
      rw [he, Line.importTarget?_braces] at ht
      nomatch ht

inductive Segment
  | box (drawing : Drawing)
  | filler (line : List Char) (plain : Line.IsFiller line)

namespace Segment

def lines : Segment → List (List Char)
  | .box drawing => drawing.lines
  | .filler line _ => [line]

def codeboxes (unit : String) : Nat → List Segment → List Codebox
  | _, [] => []
  | n, .box drawing :: rest =>
    drawing.codebox ⟨unit, n⟩ :: codeboxes unit (n + drawing.lines.length) rest
  | n, .filler _ _ :: rest => codeboxes unit (n + 1) rest

def item (unit : String) (n : Nat) : Segment → Item
  | .box drawing => .box (drawing.codebox ⟨unit, n⟩)
  | .filler line _ => .stray ⟨unit, n⟩ (line.all Text.isBlank)

def items (unit : String) : Nat → List Segment → List Item
  | _, [] => []
  | n, segment :: rest => segment.item unit n :: items unit (n + segment.lines.length) rest

end Segment

def Drawn (segments : List Segment) (lines : List (List Char)) : Prop :=
  segments.flatMap Segment.lines = lines

def ImportsOutside (lines : List (List Char)) : Prop :=
  ∃ segments before target after,
    Drawn segments before ∧ lines = before ++ braces target :: after

theorem not_importsOutside {lines : List (List Char)}
    (h : ∀ line ∈ lines, Line.importTarget? line = none) : ¬ ImportsOutside lines := by
  rintro ⟨segments, before, target, after, -, rfl⟩
  have ht := h (braces target) (by simp)
  rw [Line.importTarget?_braces] at ht
  nomatch ht

-- ---------------------------------------------------------------------------
-- There is one way to cut lines into segments
-- ---------------------------------------------------------------------------

section
variable {rest rest' : List (List Char)}

theorem rows_unique {width : Nat} {rows rows' : List (List Char)}
    (h : ∀ row ∈ rows, row ≠ border width) (h' : ∀ row ∈ rows', row ≠ border width)
    (he : rows.map fence ++ border (width + 2) :: rest =
      rows'.map fence ++ border (width + 2) :: rest') : rows = rows' ∧ rest = rest' := by
  simp only [← Line.fence_border] at he
  induction rows generalizing rows' with
  | nil =>
    cases rows' with
    | nil => exact ⟨rfl, (List.cons.inj he).2⟩
    | cons row' rows' =>
      have hrow := Line.fence_inj (List.cons.inj he).1
      exact absurd hrow.symm (h' row' List.mem_cons_self)
  | cons row rows ih =>
    cases rows' with
    | nil =>
      have hrow := Line.fence_inj (List.cons.inj he).1
      exact absurd hrow (h row List.mem_cons_self)
    | cons row' rows' =>
      obtain ⟨hrow, htail⟩ := List.cons.inj he
      obtain ⟨rfl, rfl⟩ := ih (fun row hm => h row (List.mem_cons_of_mem _ hm))
        (fun row hm => h' row (List.mem_cons_of_mem _ hm)) htail
      exact ⟨by rw [Line.fence_inj hrow], rfl⟩

theorem Drawing.lines_unique {drawing drawing' : Drawing}
    (he : drawing.lines ++ rest = drawing'.lines ++ rest') : drawing = drawing' ∧ rest = rest' := by
  simp only [Drawing.lines, List.cons_append, List.append_assoc, List.nil_append] at he
  obtain ⟨-, he⟩ := List.cons.inj he
  obtain ⟨hlabel, he⟩ := List.cons.inj he
  obtain ⟨hentry, he⟩ := List.cons.inj he
  obtain ⟨hbefore, hafter⟩ := Line.marker_inj (Line.fence_inj hentry)
  have hwidth : drawing.width = drawing'.width := by
    unfold Drawing.width
    rw [hbefore, hafter]
  rw [← hwidth] at he
  have hopen : ∀ row ∈ drawing'.rows, row ≠ border drawing.width := by
    rw [hwidth]
    exact drawing'.rows_open
  obtain ⟨hrows, hrest⟩ := rows_unique drawing.rows_open hopen he
  exact ⟨Drawing.ext (Line.fence_inj hlabel) hbefore hafter hrows, hrest⟩

theorem Segment.lines_unique {segment segment' : Segment}
    (he : segment.lines ++ rest = segment'.lines ++ rest') : segment = segment' ∧ rest = rest' := by
  cases segment with
  | box drawing =>
    cases segment' with
    | box drawing' =>
      obtain ⟨rfl, hrest⟩ := Drawing.lines_unique he
      exact ⟨rfl, hrest⟩
    | filler line plain =>
      exact absurd (List.cons.inj he).1.symm (plain.1 _ (Nat.succ_pos _))
  | filler line plain =>
    cases segment' with
    | box drawing' => exact absurd (List.cons.inj he).1 (plain.1 _ (Nat.succ_pos _))
    | filler line' plain' =>
      obtain ⟨rfl, hrest⟩ := List.cons.inj he
      exact ⟨rfl, hrest⟩

theorem Segment.lines_ne_nil (segment : Segment) : segment.lines ≠ [] := by
  cases segment <;> simp [Segment.lines, Drawing.lines]

theorem segments_unique {segments segments' : List Segment} {lines : List (List Char)}
    (h : Drawn segments lines) (h' : Drawn segments' lines) : segments = segments' := by
  have he : segments.flatMap Segment.lines = segments'.flatMap Segment.lines := h.trans h'.symm
  clear h h'
  induction segments generalizing segments' with
  | nil =>
    cases segments' with
    | nil => rfl
    | cons segment' segments' => simp [Segment.lines_ne_nil] at he
  | cons segment segments ih =>
    cases segments' with
    | nil => simp [Segment.lines_ne_nil] at he
    | cons segment' segments' =>
      obtain ⟨rfl, hrest⟩ := Segment.lines_unique he
      rw [ih hrest]

end

-- ---------------------------------------------------------------------------
-- Scanning segments
-- ---------------------------------------------------------------------------

namespace Outline

section
variable {unit : String} {n : Nat} {origin : Location}

theorem scan_rows {width entry : Nat} {name : String} {rows above rest : List (List Char)}
    (hl : ∀ row ∈ rows, row.length = width) (ho : ∀ row ∈ rows, row ≠ border width) :
    scan unit (some ⟨width + 2, origin, .entered name entry above⟩) n
        (rows.map fence ++ border (width + 2) :: rest) =
      cons (.box ⟨name, width, entry, above.reverse ++ rows, origin⟩)
        (scan unit none (n + rows.length + 1) rest) := by
  induction rows generalizing above n with
  | nil =>
    rw [List.append_nil]
    exact scan_of_closed (Draft.feed_entered_ok.2 (.inl ⟨Nat.succ_pos _, rfl, rfl⟩))
  | cons row rows ih =>
    have hrow : row.length = width := hl row List.mem_cons_self
    have hopen : row ≠ border row.length := hrow ▸ ho row List.mem_cons_self
    rw [List.map_cons, List.cons_append,
      scan_of_more (Draft.feed_entered_ok.2 (.inr ⟨row, rfl, by rw [hrow], hopen, rfl⟩)),
      ih (fun row hm => hl row (List.mem_cons_of_mem _ hm))
        (fun row hm => ho row (List.mem_cons_of_mem _ hm)),
      List.reverse_cons, List.append_assoc, List.singleton_append, List.length_cons]
    congr 2
    omega

theorem scan_border {width : Nat} {rest : List (List Char)} :
    scan unit none n (border (width + 1) :: rest) =
      scan unit (some ⟨width + 1, ⟨unit, n⟩, .bordered⟩) (n + 1) rest := by
  rw [scan, if_pos Line.isBorder_border, Line.length_border]

theorem scan_drawing (drawing : Drawing) (rest : List (List Char)) :
    scan unit none n (drawing.lines ++ rest) =
      cons (.box (drawing.codebox ⟨unit, n⟩))
        (scan unit none (n + drawing.lines.length) rest) := by
  have hname : drawing.label.length + 2 = drawing.width + 2 :=
    congrArg (· + 2) drawing.label_length
  simp only [Drawing.lines, List.cons_append, List.append_assoc, List.nil_append]
  refine scan_border.trans ?_
  refine (scan_of_more (Draft.feed_bordered_ok.2 ⟨drawing.label, rfl, hname, rfl⟩)).trans ?_
  refine (scan_of_more (Draft.feed_named_ok.2 ⟨_, _, rfl, rfl, rfl⟩)).trans ?_
  refine (scan_rows drawing.rows_length drawing.rows_open).trans ?_
  simp only [List.length_cons, List.length_append, List.length_map, List.length_nil]
  congr 2
  omega

theorem scan_filler {line : List Char} (rest : List (List Char)) (h : Line.IsFiller line) :
    scan unit none n (line :: rest) =
      cons (.stray ⟨unit, n⟩ (line.all Text.isBlank)) (scan unit none (n + 1) rest) := by
  obtain ⟨hb, hi⟩ := Line.isFiller_iff.1 h
  rw [scan, if_neg (by simp [hb]), hi]

theorem scan_segment (segment : Segment) (rest : List (List Char)) :
    scan unit none n (segment.lines ++ rest) =
      cons (segment.item unit n) (scan unit none (n + segment.lines.length) rest) := by
  cases segment with
  | box drawing => exact scan_drawing drawing rest
  | filler line plain => exact scan_filler rest plain

theorem scan_of_drawn {segments : List Segment} {lines : List (List Char)}
    (h : Drawn segments lines) :
    scan unit none n lines = ⟨Segment.items unit n segments, none⟩ := by
  subst h
  induction segments generalizing n with
  | nil => rfl
  | cons segment segments ih =>
    rw [List.flatMap_cons, scan_segment, ih]
    rfl

-- ---------------------------------------------------------------------------
-- Cutting lines into segments
-- ---------------------------------------------------------------------------

/-- An open codebox stops the scan, or its rows end at a border. -/
theorem scan_entered_cases {width entry : Nat} {name : String} {above lines : List (List Char)} :
    (∃ error, scan unit (some ⟨width + 2, origin, .entered name entry above⟩) n lines =
      ⟨[], some error⟩) ∨
    ∃ rows rest : List (List Char), (∀ row ∈ rows, row.length = width) ∧
      (∀ row ∈ rows, row ≠ border width) ∧
      lines = rows.map fence ++ border (width + 2) :: rest := by
  induction lines generalizing above n with
  | nil => exact .inl ⟨_, rfl⟩
  | cons line lines ih =>
    cases hf : Draft.feed ⟨width + 2, origin, .entered name entry above⟩ ⟨unit, n⟩ line with
    | error error => exact .inl ⟨error, scan_of_error hf⟩
    | ok progress =>
      rcases Draft.feed_entered_ok.1 hf with ⟨-, rfl, -⟩ | ⟨row, rfl, hw, ho, rfl⟩
      · exact .inr ⟨[], lines, by simp, by simp, rfl⟩
      · obtain rfl : row.length = width := Nat.add_right_cancel hw
        rw [scan_of_more hf]
        refine Or.imp_right ?_ ih
        rintro ⟨rows, rest, hl, hopen, rfl⟩
        exact ⟨row :: rows, rest, List.forall_mem_cons.2 ⟨rfl, hl⟩,
          List.forall_mem_cons.2 ⟨ho, hopen⟩, rfl⟩

theorem scan_border_cases {width : Nat} {lines : List (List Char)} :
    (∃ error, scan unit none n (border (width + 1) :: lines) = ⟨[], some error⟩) ∨
    ∃ (drawing : Drawing) (rest : List (List Char)),
      border (width + 1) :: lines = drawing.lines ++ rest := by
  rw [scan_border]
  cases lines with
  | nil => exact .inl ⟨_, rfl⟩
  | cons line lines =>
    cases hf : Draft.feed ⟨width + 1, ⟨unit, n⟩, .bordered⟩ ⟨unit, n + 1⟩ line with
    | error error => exact .inl ⟨error, scan_of_error hf⟩
    | ok progress =>
      obtain ⟨label, rfl, hlabel, rfl⟩ := Draft.feed_bordered_ok.1 hf
      rw [scan_of_more hf]
      cases lines with
      | nil => exact .inl ⟨_, rfl⟩
      | cons line lines =>
        cases hg : Draft.feed ⟨width + 1, ⟨unit, n⟩, .named _⟩ ⟨unit, n + 1 + 1⟩ line with
        | error error => exact .inl ⟨error, scan_of_error hg⟩
        | ok progress =>
          obtain ⟨before, after, rfl, hwidth, rfl⟩ := Draft.feed_named_ok.1 hg
          rw [scan_of_more hg, ← hwidth]
          refine Or.imp_right ?_ scan_entered_cases
          rintro ⟨rows, rest, hl, ho, rfl⟩
          refine ⟨⟨label, before, after, rows, by omega, hl, ho⟩, rest, ?_⟩
          simp [Drawing.lines, Drawing.width]

end

/-- Lines from line `n` on that begin with segments, after which they end, import or stop the
scan. -/
inductive Cut (unit : String) : (n : Nat) → (lines : List (List Char)) → Prop
  | ended {n} : Cut unit n []
  | imports {n target rest} : Cut unit n (braces target :: rest)
  | stopped {n lines error} (stops : scan unit none n lines = ⟨[], some error⟩) : Cut unit n lines
  | segment {n rest} (first : Segment) (cut : Cut unit (n + first.lines.length) rest) :
    Cut unit n (first.lines ++ rest)

theorem cut (unit : String) (n : Nat) (lines : List (List Char)) : Cut unit n lines := by
  -- on the number of lines, since a drawn codebox takes several at once
  induction hlen : lines.length using Nat.strongRecOn generalizing lines n with
  | ind length ih =>
    cases lines with
    | nil => exact .ended
    | cons line rest =>
      cases hb : Line.isBorder line with
      | true =>
        obtain ⟨width, hpos, rfl⟩ := Line.isBorder_iff.1 hb
        obtain ⟨width, rfl⟩ := Nat.exists_eq_succ_of_ne_zero (Nat.ne_of_gt hpos)
        rcases scan_border_cases with ⟨error, hstop⟩ | ⟨drawing, rest', he⟩
        · exact .stopped hstop
        · rw [he]
          refine .segment (.box drawing) (ih rest'.length ?_ _ _ rfl)
          rw [← hlen, he, List.length_append]
          exact Nat.lt_add_of_pos_left (Nat.succ_pos _)
      | false =>
        cases ht : Line.importTarget? line with
        | some target =>
          rw [Line.importTarget?_eq_some_iff.1 ht]
          exact .imports
        | none =>
          refine .segment (.filler line (Line.isFiller_iff.2 ⟨hb, ht⟩)) (ih rest.length ?_ _ _ rfl)
          rw [← hlen]
          exact Nat.lt_succ_self _

theorem Cut.drawn {unit : String} {n : Nat} {lines : List (List Char)} (h : Cut unit n lines)
    (hi : ¬ ImportsOutside lines) (hf : (scan unit none n lines).fault = none) :
    ∃ segments, Drawn segments lines := by
  induction h with
  | ended => exact ⟨[], rfl⟩
  | imports => exact absurd ⟨[], [], _, _, rfl, rfl⟩ hi
  | stopped stops => simp [stops] at hf
  | @segment n rest first _ ih =>
    rw [scan_segment] at hf
    have hrest : ¬ ImportsOutside rest := by
      rintro ⟨segments, before, target, after, rfl, rfl⟩
      exact hi ⟨first :: segments, _, target, after, rfl, by simp⟩
    obtain ⟨segments, rfl⟩ := ih hrest hf
    exact ⟨first :: segments, rfl⟩

end Outline

-- ---------------------------------------------------------------------------
-- Loading segments
-- ---------------------------------------------------------------------------

theorem flat_segments {source : Source} {reading : List String} {unit : String} {n : Nat}
    {segments : List Segment} {h} :
    (source.expand reading (Segment.items unit n segments) none h).flat =
      .ok (Segment.codeboxes unit n segments) := by
  induction segments generalizing n with
  | nil =>
    refine (congrArg Plan.flat Source.expand_nil).trans ?_
    rfl
  | cons segment segments ih =>
    cases segment with
    | box drawing =>
      refine (congrArg Plan.flat Source.expand_box).trans ?_
      rw [Plan.flat, ih]
      rfl
    | filler line plain =>
      refine (congrArg Plan.flat Source.expand_stray).trans ?_
      rw [Plan.flat, ih]
      rfl

theorem Source.enter_of_read {source : Source} {unit text : String}
    (h : source.read unit = .ok text) : source.enter [] unit = .ok (Outline.ofText unit text) := by
  simp [Source.enter, h]

namespace Loader

section
variable {loader : Loader} {source : Source} {unit text : String} {segments : List Segment}

theorem load_of_drawn (hl : loader.strict = false) (hr : source.read unit = .ok text)
    (hd : Drawn segments (Text.lines text)) (journal : Log.Journal) :
    (loader.load source unit journal).1 = .ok (.ofList (Segment.codeboxes unit 1 segments)) := by
  have he : source.enter [] unit = .ok ⟨Segment.items unit 1 segments, none⟩ := by
    rw [Source.enter_of_read hr, Outline.ofText, Outline.scan_of_drawn hd]
  obtain ⟨hn, hplan⟩ := Source.exists_planWithin_eq he
  rw [load_lenient hl, Source.plan, hplan, flat_segments]
  rfl

theorem drawn_of_load {journal : Log.Journal} {reg : Registry} (hl : loader.strict = false)
    (hr : source.read unit = .ok text) (hi : ¬ ImportsOutside (Text.lines text))
    (h : (loader.load source unit journal).1 = .ok reg) :
    ∃ segments, Drawn segments (Text.lines text) := by
  rw [load_lenient hl] at h
  obtain ⟨boxes, hboxes, -⟩ := map_ok.1 h
  obtain ⟨hn, hplan⟩ := Source.exists_planWithin_eq (Source.enter_of_read hr)
  rw [Source.plan, hplan] at hboxes
  exact (Outline.cut unit 1 _).drawn hi (Source.splice_of_expand hboxes).1

end

/-- A unit without imports is accepted if and only if it consists of segments. These are unique,
and under each key stands the last codebox drawn in them that has the key. -/
theorem lenient_load_iff_drawn {source : Source} {unit text : String}
    (hr : source.read unit = .ok text) (hi : ¬ ImportsOutside (Text.lines text))
    (order : Enumeration) (journal : Log.Journal) :
    ((∃ reg, (load ⟨false, order⟩ source unit journal).1 = .ok reg) ↔
      ∃ segments, Drawn segments (Text.lines text)) ∧
    ∀ segments, Drawn segments (Text.lines text) →
      (∀ segments', Drawn segments' (Text.lines text) → segments' = segments) ∧
      ∃ reg, (load ⟨false, order⟩ source unit journal).1 = .ok reg ∧
        ∀ key, reg.get? key = Registry.lastWith key (Segment.codeboxes unit 1 segments) := by
  refine ⟨⟨?_, ?_⟩, ?_⟩
  · rintro ⟨reg, hload⟩
    exact drawn_of_load rfl hr hi hload
  · rintro ⟨segments, hd⟩
    exact ⟨_, load_of_drawn rfl hr hd journal⟩
  · intro segments hd
    refine ⟨?_, _, load_of_drawn rfl hr hd journal, ?_⟩
    · intro segments' hd'
      exact segments_unique hd' hd
    · exact Registry.get?_ofList _

def sketch : String := "notes\n####\n#f #\n#=v#\n#@@#\n####\n\n###\n#f#\n#v#\n###\n"

def sketchSegments : List Segment :=
  [.filler "notes".toList (Line.isFiller_iff.2 (by decide)),
    .box ⟨['f', ' '], 1, 0, [['@', '@']], rfl, by decide, by decide⟩,
    .filler [] (Line.isFiller_iff.2 (by decide)),
    .box ⟨['f'], 0, 0, [], rfl, by decide, by decide⟩]

theorem lenient_load_sketch :
    ∃ reg, (lenient.load (.ofUnits [("u", sketch)]) "u" (.start .warn)).1 = .ok reg ∧
      reg.get? (.command 'f') = some ⟨"f", 1, 0, [], ⟨"u", 8⟩⟩ := by
  have hr : (Source.ofUnits [("u", sketch)]).read "u" = .ok sketch := rfl
  have hd : Drawn sketchSegments (Text.lines sketch) := by rfl
  have hi : ¬ ImportsOutside (Text.lines sketch) := by
    refine not_importsOutside ?_
    decide
  obtain ⟨-, h⟩ := lenient_load_iff_drawn hr hi .byKey (.start .warn)
  obtain ⟨-, reg, hload, hget⟩ := h sketchSegments hd
  exact ⟨reg, hload, (hget _).trans (by rfl)⟩

end Loader

end Gridwalk
