import Gridwalk.Proofs.LineLaws
import Gridwalk.Proofs.Provenance

/-!
# Exporting programs

A loaded program can be written down again. Each codebox is drawn with its name anywhere on its name
line (`Codebox.draw`), and what loading makes of the drawing is that codebox: a loaded name has no
spaces at its ends, a loaded row is no border, and neither holds a line feed (`Drawable`).

A page holds drawn codeboxes and blank lines in any order. The codeboxes of a registry have distinct
keys, so a page with all of them loads strictly and leniently to a registry that differs only in
where its codeboxes come from (`exported_program_loads`).
-/

namespace Gridwalk

open Line (border fence marker)

-- ---------------------------------------------------------------------------
-- Fenced and blank lines
-- ---------------------------------------------------------------------------

section
variable {cs : List Char}

theorem Line.dropReturns_fence : Text.dropReturns (fence cs) = fence cs :=
  show Text.dropEndWhile (· = '\r') (('#' :: cs) ++ ['#']) = _ from
    Text.dropEndWhile_concat_of_neg (by decide)

theorem Line.newline_not_mem_fence (h : '\n' ∉ cs) : '\n' ∉ fence cs := by
  simp [fence, h]

theorem Line.importTarget?_fence : Line.importTarget? (fence cs) = none := rfl

theorem Line.isFiller_of_blank (h : cs.all Text.isBlank = true) : Line.IsFiller cs := by
  rw [List.all_eq_true] at h
  constructor
  · rintro n hn rfl
    exact absurd (h '#' (by simp [border, Nat.ne_of_gt hn])) (by decide)
  · rintro target rfl
    exact absurd (h '{' List.mem_cons_self) (by decide)

theorem Text.blank_dropReturns (h : cs.all Text.isBlank = true) :
    (Text.dropReturns cs).all Text.isBlank = true := by
  rw [List.all_eq_true] at h ⊢
  intro c hc
  exact h c (Text.dropEndWhile_sublist.subset hc)

end

-- ---------------------------------------------------------------------------
-- Drawing codeboxes
-- ---------------------------------------------------------------------------

namespace Codebox

/-- The name between spaces, as wide as the codebox. As many as `left` of the spaces stand before
the name, if there are so many. -/
def label (box : Codebox) (left : Nat) : List Char :=
  let free := box.width - box.name.length
  List.replicate (min left free) ' ' ++ box.name.toList ++ List.replicate (free - left) ' '

def draw (box : Codebox) (left : Nat) : List (List Char) :=
  border (box.width + 2) :: fence (box.label left) ::
    fence (marker box.entry (box.width - box.entry - 1)) ::
    (box.rows.map fence ++ [border (box.width + 2)])

/-- The codebox is what some drawing in a text amounts to. -/
structure Drawable (box : Codebox) : Prop where
  wellFormed : box.WellFormed
  trimmed : Text.trimWhile (· = ' ') box.name.toList = box.name.toList
  fits : box.name.length ≤ box.width
  open_rows : ∀ row ∈ box.rows, row ≠ border box.width
  name_on_line : '\n' ∉ box.name.toList
  rows_on_line : ∀ row ∈ box.rows, '\n' ∉ row

section
variable {box : Codebox}

theorem length_label (h : box.name.length ≤ box.width) (left : Nat) :
    (box.label left).length = box.width := by
  have hname : box.name.toList.length = box.name.length := String.length_toList
  simp only [label, List.length_append, List.length_replicate, hname]
  omega

theorem trimWhile_label (h : box.Drawable) (left : Nat) :
    Text.trimWhile (· = ' ') (box.label left) = box.name.toList := by
  unfold label
  rw [← h.trimmed]
  apply Text.trimWhile_pad <;> simp

theorem columns_eq_width (h : box.WellFormed) :
    box.entry + 1 + (box.width - box.entry - 1) = box.width := by
  have hentry := h.1
  omega

def Drawable.drawing (h : box.Drawable) (left : Nat) : Drawing where
  label := box.label left
  before := box.entry
  after := box.width - box.entry - 1
  rows := box.rows
  label_length := by
    rw [length_label h.fits, columns_eq_width h.wellFormed]
  rows_length row hm := by
    rw [h.wellFormed.2 row hm, columns_eq_width h.wellFormed]
  rows_open row hm := by
    rw [columns_eq_width h.wellFormed]
    exact h.open_rows row hm

theorem Drawable.width_drawing (h : box.Drawable) (left : Nat) :
    (h.drawing left).width = box.width :=
  columns_eq_width h.wellFormed

theorem Drawable.lines_drawing (h : box.Drawable) (left : Nat) :
    (h.drawing left).lines = box.draw left := by
  rw [Drawing.lines, h.width_drawing]
  rfl

/-- Drawing a codebox and reading the drawing gives the codebox, at the place of the drawing. -/
theorem Drawable.codebox_drawing (h : box.Drawable) (left : Nat) (origin : Location) :
    (h.drawing left).codebox origin = { box with origin } := by
  rw [Drawing.codebox, h.width_drawing]
  simp [Drawable.drawing, trimWhile_label h]

/-- All lines of a drawn codebox are fenced, and no line feed breaks them. -/
theorem Drawable.exists_fence (h : box.Drawable) {left : Nat} {line : List Char}
    (hm : line ∈ box.draw left) : ∃ cs, line = fence cs ∧ '\n' ∉ cs := by
  have hborder : ∃ cs, border (box.width + 2) = fence cs ∧ '\n' ∉ cs :=
    ⟨border box.width, Line.fence_border.symm, by simp [border]⟩
  simp only [draw, List.mem_cons, List.mem_append, List.mem_map, List.not_mem_nil, or_false] at hm
  rcases hm with rfl | rfl | rfl | ⟨row, hrow, rfl⟩ | rfl
  · exact hborder
  · exact ⟨_, rfl, by simp [label, h.name_on_line]⟩
  · exact ⟨_, rfl, by simp [marker]⟩
  · exact ⟨row, rfl, h.rows_on_line row hrow⟩
  · exact hborder

theorem Drawable.map_dropReturns (h : box.Drawable) (left : Nat) :
    (box.draw left).map Text.dropReturns = box.draw left := by
  refine (List.map_congr_left ?_).trans (List.map_id _)
  intro line hm
  obtain ⟨cs, rfl, -⟩ := h.exists_fence hm
  exact Line.dropReturns_fence

end

end Codebox

theorem Drawing.drawable_codebox {drawing : Drawing} (h : ∀ line ∈ drawing.lines, '\n' ∉ line)
    (origin : Location) : (drawing.codebox origin).Drawable := by
  have hfenced : ∀ cs, fence cs ∈ drawing.lines → '\n' ∉ cs := by
    intro cs hline hm
    exact h _ hline (List.mem_cons_of_mem _ (List.mem_append_left _ hm))
  have hname : (drawing.codebox origin).name.toList = Text.trimWhile (· = ' ') drawing.label :=
    String.toList_ofList
  refine ⟨drawing.wellFormed_codebox origin, ?_, ?_, drawing.rows_open, ?_, ?_⟩
  · rw [hname]
    exact Text.trimWhile_idem
  · rw [← String.length_toList, hname]
    calc (Text.trimWhile (· = ' ') drawing.label).length
      _ ≤ drawing.label.length := Text.trimWhile_sublist.length_le
      _ = drawing.width := drawing.label_length
  · rw [hname]
    intro hm
    exact hfenced drawing.label (by simp [Drawing.lines]) (Text.trimWhile_sublist.subset hm)
  · intro row hrow
    have hline : fence row ∈ drawing.rows.map fence := List.mem_map_of_mem hrow
    refine hfenced row ?_
    simp only [Drawing.lines, List.mem_cons, List.mem_append, hline, true_or, or_true]

theorem Loader.drawable_of_load {loader : Loader} {source : Source} {unit : String}
    {journal : Log.Journal} {reg : Registry} {box : Codebox}
    (h : (loader.load source unit journal).1 = .ok reg) (hb : box ∈ reg.boxes) : box.Drawable := by
  obtain ⟨other, text, draft, -, -, hcloses⟩ := closes_of_load h hb
  obtain ⟨parts, drawing, rest, hlines, -, rfl⟩ := hcloses.drawn
  refine Drawing.drawable_codebox ?_ _
  intro line hm
  have hline : line ∈ Text.lines text := by simp [hlines, hm]
  exact Text.newline_not_mem_of_mem_lines hline

-- ---------------------------------------------------------------------------
-- Pages
-- ---------------------------------------------------------------------------

inductive Piece
  | drawn (left : Nat) (box : Codebox)
  | blank (line : List Char)

namespace Piece

def lines : Piece → List (List Char)
  | .drawn left box => box.draw left
  | .blank line => [line]

def box? : Piece → Option Codebox
  | .drawn _ box => some box
  | .blank _ => none

def allLines (page : List Piece) : List (List Char) := page.flatMap lines

def text (page : List Piece) : String := Text.unlines (allLines page)

def codeboxes (unit : String) : Nat → List Piece → List Codebox
  | _, [] => []
  | n, .drawn left box :: rest =>
    { box with origin := ⟨unit, n⟩ } :: codeboxes unit (n + (box.draw left).length) rest
  | n, .blank _ :: rest => codeboxes unit (n + 1) rest

def Proper : Piece → Prop
  | .drawn _ box => box.Drawable
  | .blank line => line.all Text.isBlank = true ∧ '\n' ∉ line

section
variable {page before after : List Piece} {unit : String} {n : Nat}

theorem codeboxes_append :
    codeboxes unit n (before ++ after) =
      codeboxes unit n before ++ codeboxes unit (n + (allLines before).length) after := by
  induction before generalizing n with
  | nil => rfl
  | cons piece before ih =>
    cases piece <;>
      simp [codeboxes, ih, allLines, lines, Nat.add_assoc, Nat.add_comm 1]

theorem map_key_codeboxes (unit : String) (n : Nat) (page : List Piece) :
    (codeboxes unit n page).map Codebox.key = (page.filterMap box?).map Codebox.key := by
  induction page generalizing n with
  | nil => rfl
  | cons piece page ih =>
    cases piece with
    | drawn left box => exact congrArg (box.key :: ·) (ih _)
    | blank line => exact ih _

theorem mem_boxes_iff {box : Codebox} :
    box ∈ page.filterMap box? ↔ ∃ left, .drawn left box ∈ page := by
  rw [List.mem_filterMap]
  constructor
  · rintro ⟨piece, hm, hbox⟩
    cases piece with
    | drawn left other =>
      obtain rfl := Option.some.inj hbox
      exact ⟨left, hm⟩
    | blank line => nomatch hbox
  · rintro ⟨left, hm⟩
    exact ⟨_, hm, rfl⟩

theorem newline_not_mem_allLines (h : ∀ piece ∈ page, piece.Proper) :
    ∀ line ∈ allLines page, '\n' ∉ line := by
  intro line hm
  obtain ⟨piece, hpiece, hm⟩ := List.mem_flatMap.1 hm
  have hproper := h piece hpiece
  cases piece with
  | drawn left box =>
    obtain ⟨cs, rfl, hcs⟩ := hproper.exists_fence hm
    exact Line.newline_not_mem_fence hcs
  | blank gap =>
    rw [List.mem_singleton.1 hm]
    exact hproper.2

theorem lines_text (h : ∀ piece ∈ page, piece.Proper) :
    Text.lines (text page) = (allLines page).map Text.dropReturns :=
  Text.lines_unlines (newline_not_mem_allLines h)

theorem importTarget?_of_mem_lines {line : List Char} (h : ∀ piece ∈ page, piece.Proper)
    (hm : line ∈ Text.lines (text page)) : Line.importTarget? line = none := by
  rw [lines_text h] at hm
  obtain ⟨written, hwritten, rfl⟩ := List.mem_map.1 hm
  obtain ⟨piece, hpiece, hline⟩ := List.mem_flatMap.1 hwritten
  have hproper := h piece hpiece
  cases piece with
  | drawn left box =>
    obtain ⟨cs, rfl, -⟩ := hproper.exists_fence hline
    rw [Line.dropReturns_fence]
    exact Line.importTarget?_fence
  | blank gap =>
    rw [List.mem_singleton.1 hline]
    exact (Line.isFiller_iff.1 (Line.isFiller_of_blank (Text.blank_dropReturns hproper.1))).2

theorem exists_segments (h : ∀ piece ∈ page, piece.Proper) :
    ∃ segments, Drawn segments ((allLines page).map Text.dropReturns) ∧
      (∀ unit n, Segment.codeboxes unit n segments = codeboxes unit n page) ∧
      ∀ line plain, .filler line plain ∈ segments → line.all Text.isBlank = true := by
  induction page with
  | nil => exact ⟨[], rfl, fun _ _ => rfl, fun _ _ hm => nomatch hm⟩
  | cons piece page ih =>
    obtain ⟨hpiece, hpage⟩ := List.forall_mem_cons.1 h
    obtain ⟨segments, hdrawn, hboxes, hblank⟩ := ih hpage
    unfold Drawn at hdrawn ⊢
    rw [allLines, List.flatMap_cons, List.map_append, ← allLines, ← hdrawn]
    cases piece with
    | drawn left box =>
      refine ⟨.box (hpiece.drawing left) :: segments, ?_, ?_, ?_⟩
      · rw [List.flatMap_cons, lines, hpiece.map_dropReturns, Segment.lines, hpiece.lines_drawing]
      · intro unit n
        rw [Segment.codeboxes, hpiece.codebox_drawing, hpiece.lines_drawing, hboxes]
        rfl
      · intro line plain hm
        exact hblank line plain (List.mem_of_ne_of_mem (by simp) hm)
    | blank line =>
      have hline := Text.blank_dropReturns hpiece.1
      refine ⟨.filler _ (Line.isFiller_of_blank hline) :: segments, rfl, ?_, ?_⟩
      · intro unit n
        rw [Segment.codeboxes, hboxes]
        rfl
      · intro other plain hm
        rcases List.mem_cons.1 hm with he | hm
        · obtain rfl := (Segment.filler.inj he)
          exact hline
        · exact hblank other plain hm

end

end Piece

-- ---------------------------------------------------------------------------
-- Loading pages
-- ---------------------------------------------------------------------------

section
variable {segments : List Segment} {unit : String} {n : Nat} {item : Item}

theorem Segment.exists_of_mem_items (h : item ∈ items unit n segments) :
    ∃ segment ∈ segments, ∃ m, item = segment.item unit m := by
  induction segments generalizing n with
  | nil => nomatch h
  | cons segment segments ih =>
    rcases List.mem_cons.1 h with rfl | h
    · exact ⟨segment, List.mem_cons_self, n, rfl⟩
    · obtain ⟨other, hm, hitem⟩ := ih h
      exact ⟨other, List.mem_cons_of_mem _ hm, hitem⟩

theorem Segment.blank_plan {source : Source} {reading : List String} {hn}
    (h : ∀ line plain, .filler line plain ∈ segments → line.all Text.isBlank = true) :
    (source.expand reading (items unit n segments) none hn).Blank := by
  intro place hm
  rcases Source.mem_trace_expand_iff.1 hm with ⟨item, hitem, he⟩ | ⟨target, ht, -⟩ | ⟨error, hf, -⟩
  · obtain rfl := Except.ok.inj he
    obtain ⟨segment, hsegment, m, he⟩ := exists_of_mem_items hitem
    cases segment with
    | box drawing => cases he
    | filler line plain =>
      obtain ⟨-, hfalse⟩ := Item.stray.inj he
      cases hfalse.trans (h line plain hsegment)
  · obtain ⟨item, hitem, ht⟩ := List.mem_filterMap.1 ht
    obtain ⟨segment, -, m, rfl⟩ := exists_of_mem_items hitem
    cases segment <;> cases ht
  · cases hf

end

theorem consistent_of_nodup {boxes : List Codebox} (h : (boxes.map Codebox.key).Nodup) :
    Consistent boxes := by
  intro a ha b hb hk
  have hsame := Registry.get?_ofList_of_mem h ha
  rw [hk, Registry.get?_ofList_of_mem h hb] at hsame
  rw [Option.some.inj hsame]

namespace Loader

section
variable {loader : Loader} {source : Source} {unit text : String} {segments : List Segment}

/-- Where only blank lines stand between codeboxes that do not collide, loading is the same in both
modes. -/
theorem load_of_blank_drawn (hr : source.read unit = .ok text)
    (hd : Drawn segments (Text.lines text))
    (hblank : ∀ line plain, .filler line plain ∈ segments → line.all Text.isBlank = true)
    (hc : Consistent (Segment.codeboxes unit 1 segments)) (journal : Log.Journal) :
    (loader.load source unit journal).1 = .ok (.ofList (Segment.codeboxes unit 1 segments)) := by
  have he : source.enter [] unit = .ok ⟨Segment.items unit 1 segments, none⟩ := by
    rw [Source.enter_of_read hr, Outline.ofText, Outline.scan_of_drawn hd]
  obtain ⟨hn, hplan⟩ := Source.exists_planWithin_eq he
  refine load_of_flat ?_ ?_ hc journal
  · rw [Source.plan, hplan, flat_segments]
  · rw [Source.plan, hplan]
    exact Segment.blank_plan hblank

end

section
variable {loader : Loader} {source : Source} {unit : String} {page : List Piece}

theorem load_page (hp : ∀ piece ∈ page, piece.Proper)
    (hk : ((page.filterMap Piece.box?).map Codebox.key).Nodup)
    (hr : source.read unit = .ok (Piece.text page)) (journal : Log.Journal) :
    (loader.load source unit journal).1 = .ok (.ofList (Piece.codeboxes unit 1 page)) := by
  obtain ⟨segments, hdrawn, hboxes, hblank⟩ := Piece.exists_segments hp
  rw [← Piece.lines_text hp] at hdrawn
  rw [← Piece.map_key_codeboxes unit 1, ← hboxes] at hk
  rw [← hboxes]
  exact load_of_blank_drawn hr hdrawn hblank (consistent_of_nodup hk) journal

end

/-- The page holds each codebox of the registry once and blank lines besides. -/
structure Exports (page : List Piece) (reg : Registry) : Prop where
  boxes : (page.filterMap Piece.box?).Perm reg.boxes
  blank : ∀ line, .blank line ∈ page → line.all Text.isBlank = true ∧ '\n' ∉ line

section
variable {loader : Loader} {source source' : Source} {unit unit' : String} {journal : Log.Journal}
  {reg : Registry} {page : List Piece}

theorem Exports.proper (h : Exports page reg)
    (hload : (loader.load source unit journal).1 = .ok reg) : ∀ piece ∈ page, piece.Proper := by
  intro piece hm
  cases piece with
  | drawn left box =>
    have hbox : box ∈ page.filterMap Piece.box? := Piece.mem_boxes_iff.2 ⟨left, hm⟩
    exact drawable_of_load hload (h.boxes.subset hbox)
  | blank line => exact h.blank line hm

theorem Exports.nodup_keys (h : Exports page reg) :
    ((page.filterMap Piece.box?).map Codebox.key).Nodup := by
  have hsorted : (reg.boxes.map Codebox.key).Nodup :=
    List.pairwise_map.2 (reg.sorted.imp fun hlt => Key.ne_of_lt hlt)
  exact (h.boxes.map Codebox.key).nodup_iff.2 hsorted

theorem Exports.nodup_codeboxes (h : Exports page reg) (n : Nat) :
    ((Piece.codeboxes unit n page).map Codebox.key).Nodup := by
  rw [Piece.map_key_codeboxes]
  exact h.nodup_keys

theorem Exports.get?_codeboxes (h : Exports page reg) {before after : List Piece} {left : Nat}
    {box : Codebox} (hs : page = before ++ .drawn left box :: after) :
    (Registry.ofList (Piece.codeboxes unit 1 page)).get? box.key =
      some { box with origin := ⟨unit, (Piece.allLines before).length + 1⟩ } := by
  have hm : { box with origin := ⟨unit, (Piece.allLines before).length + 1⟩ } ∈
      Piece.codeboxes unit 1 page := by
    rw [hs, Piece.codeboxes_append, Nat.add_comm]
    exact List.mem_append_right _ List.mem_cons_self
  exact Registry.get?_ofList_of_mem (h.nodup_codeboxes 1) hm

theorem Exports.sameUnder (h : Exports page reg) (key : Key) :
    reg.SameUnder (.ofList (Piece.codeboxes unit 1 page)) key := by
  unfold Registry.SameUnder
  cases hg : reg.get? key with
  | some box =>
    obtain rfl := Registry.key_of_get? hg
    have hbox : box ∈ page.filterMap Piece.box? :=
      h.boxes.symm.subset (Registry.mem_boxes_iff.2 hg)
    obtain ⟨left, hm⟩ := Piece.mem_boxes_iff.1 hbox
    obtain ⟨before, after, hs⟩ := List.append_of_mem hm
    rw [h.get?_codeboxes hs]
    exact .some ⟨rfl, rfl, rfl, rfl⟩
  | none =>
    have hnone : (Registry.ofList (Piece.codeboxes unit 1 page)).get? key = none := by
      rw [Registry.get?_ofList, Registry.lastWith_eq_none_iff]
      rintro copy hcopy rfl
      have hkey : copy.key ∈ (page.filterMap Piece.box?).map Codebox.key :=
        Piece.map_key_codeboxes unit 1 page ▸ List.mem_map_of_mem hcopy
      obtain ⟨box, hbox, hsame⟩ := List.mem_map.1 hkey
      have hfound := Registry.mem_boxes_iff.1 (h.boxes.subset hbox)
      rw [hsame, hg] at hfound
      cases hfound
    rw [hnone]
    exact .none

/-- The codeboxes of a loaded program, drawn in any order with blank lines before, between and after
them, are a unit without imports that loads strictly and leniently. Under each key it has the same
code as the program, or nothing as the program, and each codebox comes from where it is drawn. -/
theorem exported_program_loads (h : (loader.load source unit journal).1 = .ok reg)
    (hp : Exports page reg) (hr : source'.read unit' = .ok (Piece.text page)) :
    (∀ line ∈ Text.lines (Piece.text page), Line.importTarget? line = none) ∧
    ∃ reg', (∀ loader' journal', (load loader' source' unit' journal').1 = .ok reg') ∧
      (∀ key, reg.SameUnder reg' key) ∧
      ∀ before left box after, page = before ++ .drawn left box :: after →
        reg'.get? box.key =
          some { box with origin := ⟨unit', (Piece.allLines before).length + 1⟩ } := by
  have hproper := hp.proper h
  refine ⟨?_, .ofList (Piece.codeboxes unit' 1 page), ?_, hp.sameUnder, ?_⟩
  · intro line hm
    exact Piece.importTarget?_of_mem_lines hproper hm
  · intro loader' journal'
    exact load_page hproper hp.nodup_keys hr journal'
  · intro before left box after hs
    exact hp.get?_codeboxes hs

end

def noted : String := "calls\n###\n#f#\n#v#\n#@#\n###\nbegins\n####\n#  #\n#=v#\n#@f#\n####\n"

def notedBoxes : List Codebox :=
  [⟨"f", 1, 0, [['@']], ⟨"u", 2⟩⟩, ⟨"", 2, 1, [['@', 'f']], ⟨"u", 8⟩⟩]

def notedPage : List Piece :=
  [.blank [' '], .drawn 0 ⟨"", 2, 1, [['@', 'f']], ⟨"u", 8⟩⟩,
    .drawn 0 ⟨"f", 1, 0, [['@']], ⟨"u", 2⟩⟩]

theorem exported_program_loads_noted :
    (lenient.load (.ofUnits [("u", noted)]) "u" (.start .warn)).1 = .ok (.ofList notedBoxes) ∧
    ∃ reg', (load ⟨true, .byKey⟩ (.ofUnits [("p", Piece.text notedPage)]) "p" (.start .warn)).1 =
        .ok reg' ∧
      (Registry.ofList notedBoxes).SameUnder reg' .main ∧
      reg'.get? (.command 'f') = some ⟨"f", 1, 0, [['@']], ⟨"p", 7⟩⟩ := by
  have hr : (Source.ofUnits [("u", noted)]).read "u" = .ok noted := rfl
  have hd : Drawn
      [.filler "calls".toList (Line.isFiller_iff.2 (by decide)),
        .box ⟨['f'], 0, 0, [['@']], rfl, by decide, by decide⟩,
        .filler "begins".toList (Line.isFiller_iff.2 (by decide)),
        .box ⟨[' ', ' '], 1, 0, [['@', 'f']], rfl, by decide, by decide⟩] (Text.lines noted) := by
    rfl
  have hload : (lenient.load (.ofUnits [("u", noted)]) "u" (.start .warn)).1 =
      .ok (.ofList notedBoxes) := load_of_drawn rfl hr hd (.start .warn)
  have hpage : Exports notedPage (.ofList notedBoxes) := by
    refine ⟨.refl _, ?_⟩
    intro line hm
    obtain rfl : line = [' '] := by simpa [notedPage] using hm
    decide
  have hr' : (Source.ofUnits [("p", Piece.text notedPage)]).read "p" =
      .ok (Piece.text notedPage) := rfl
  obtain ⟨-, reg', hload', hsame, hplace⟩ := exported_program_loads hload hpage hr'
  have hplaced := hplace (notedPage.take 2) 0 ⟨"f", 1, 0, [['@']], ⟨"u", 2⟩⟩ [] rfl
  exact ⟨hload, reg', hload' _ _, hsame .main, hplaced⟩

end Loader

end Gridwalk
