import Mathlib.Data.List.DropRight
import Gridwalk.Text.Lines

/-!
# Lines and texts

The lines of a text hold no line feed (`newline_not_mem_of_mem_lines`), and nothing but carriage
returns at their ends is missing from them (`exists_eq_dropReturns`). Conversely, lines without
line feeds that are written one after the other, each ended by a line feed, are read back but for
the carriage returns at their ends (`lines_unlines`). A text that has been trimmed is found again
between any padding (`trimWhile_pad`).
-/

namespace Gridwalk.Text

section
variable {p : Char → Bool} {cs ds front back : List Char} {c : Char}

theorem dropEndWhile_sublist : (dropEndWhile p cs).Sublist cs := by
  have h := (List.dropWhile_sublist p (l := cs.reverse)).reverse
  rwa [List.reverse_reverse] at h

theorem dropEndWhile_append_of_all (h : ∀ c ∈ ds, p c) :
    dropEndWhile p (cs ++ ds) = dropEndWhile p cs := by
  unfold dropEndWhile
  rw [List.reverse_append, List.dropWhile_append_of_pos]
  intro c hc
  exact h c (List.mem_reverse.1 hc)

theorem dropEndWhile_concat_of_neg (h : ¬ p c) : dropEndWhile p (cs ++ [c]) = cs ++ [c] :=
  List.rdropWhile_concat_neg p cs c h

theorem dropEndWhile_idem : dropEndWhile p (dropEndWhile p cs) = dropEndWhile p cs :=
  List.rdropWhile_idempotent p cs

theorem trimWhile_sublist : (trimWhile p cs).Sublist cs :=
  dropEndWhile_sublist.trans (List.dropWhile_sublist p)

theorem not_head_trimWhile (h : trimWhile p cs = c :: ds) : ¬ p c := by
  have hsplit : trimWhile p cs ++ (cs.dropWhile p).rtakeWhile p = cs.dropWhile p :=
    List.rdropWhile_append_rtakeWhile ..
  have hhead := List.head?_dropWhile_not p cs
  rw [← hsplit, h] at hhead
  simpa using hhead

theorem trimWhile_pad (hf : ∀ c ∈ front, p c) (hb : ∀ c ∈ back, p c) :
    trimWhile p (front ++ trimWhile p cs ++ back) = trimWhile p cs := by
  rw [List.append_assoc, trimWhile, List.dropWhile_append_of_pos hf]
  cases hcs : trimWhile p cs with
  | nil =>
    have hnone : back.dropWhile p = [] := List.dropWhile_eq_nil_iff.2 hb
    rw [List.nil_append, hnone]
    rfl
  | cons c ds =>
    rw [List.cons_append, List.dropWhile_cons_of_neg (not_head_trimWhile hcs), ← List.cons_append,
      dropEndWhile_append_of_all hb, ← hcs]
    exact dropEndWhile_idem

theorem trimWhile_idem : trimWhile p (trimWhile p cs) = trimWhile p cs := by
  have hpad : trimWhile p ([] ++ trimWhile p cs ++ []) = trimWhile p cs :=
    trimWhile_pad (fun _ h => nomatch h) (fun _ h => nomatch h)
  rwa [List.nil_append, List.append_nil] at hpad

end

-- ---------------------------------------------------------------------------
-- Lines
-- ---------------------------------------------------------------------------

def unlines (lines : List (List Char)) : String := String.ofList (lines.flatMap (· ++ ['\n']))

section
variable {cs line piece rest : List Char} {text : String} {list : List (List Char)}

theorem flatten_pieces_sublist : (pieces cs).flatten.Sublist cs := by
  fun_induction pieces cs with
  | case1 => exact .slnil
  | case2 rest ih => exact .cons _ ih
  | case3 c rest hc hp ih =>
    rw [hp] at ih
    exact .cons_cons c ih
  | case4 c rest hc piece others hp ih =>
    rw [hp] at ih
    exact .cons_cons c ih

theorem newline_not_mem_of_mem_pieces (h : piece ∈ pieces cs) : '\n' ∉ piece := by
  fun_induction pieces cs generalizing piece with
  | case1 => nomatch h
  | case2 rest ih =>
    rcases List.mem_cons.1 h with rfl | h
    · exact List.not_mem_nil
    · exact ih h
  | case3 c rest hc hp ih =>
    rw [List.mem_singleton.1 h]
    simpa using Ne.symm hc
  | case4 c rest hc first others hp ih =>
    rw [hp] at ih
    rcases List.mem_cons.1 h with rfl | h
    · simpa [Ne.symm hc] using ih List.mem_cons_self
    · exact ih (List.mem_cons_of_mem _ h)

theorem pieces_append_newline (h : '\n' ∉ line) :
    pieces (line ++ '\n' :: rest) = line :: pieces rest := by
  induction line with
  | nil => simp [pieces]
  | cons c line ih =>
    obtain ⟨hc, hline⟩ := not_or.1 (mt List.mem_cons.2 h)
    simp [pieces, Ne.symm hc, ih hline]

theorem newline_not_mem_of_mem_lines (h : line ∈ lines text) : '\n' ∉ line := by
  obtain ⟨piece, hp, rfl⟩ := List.mem_map.1 h
  exact fun hm => newline_not_mem_of_mem_pieces hp (dropEndWhile_sublist.subset hm)

theorem sublist_of_mem_lines (h : line ∈ lines text) : line.Sublist text.toList := by
  obtain ⟨piece, hp, rfl⟩ := List.mem_map.1 h
  have hpiece : piece.Sublist text.toList :=
    (List.sublist_flatten_of_mem hp).trans flatten_pieces_sublist
  exact dropEndWhile_sublist.trans hpiece

theorem length_le_of_mem_lines (h : line ∈ lines text) : line.length ≤ text.length := by
  rw [← String.length_toList]
  exact (sublist_of_mem_lines h).length_le

theorem exists_eq_dropReturns (cs : List Char) :
    ∃ n, cs = dropReturns cs ++ List.replicate n '\r' := by
  have hsplit : dropReturns cs ++ cs.rtakeWhile (· = '\r') = cs :=
    List.rdropWhile_append_rtakeWhile ..
  have hdropped : ∀ c ∈ cs.rtakeWhile (· = '\r'), c = '\r' := by
    intro c hc
    simpa using List.mem_rtakeWhile_imp hc
  refine ⟨(cs.rtakeWhile (· = '\r')).length, ?_⟩
  rw [← List.eq_replicate_iff.2 ⟨rfl, hdropped⟩, hsplit]

theorem getLast?_dropReturns (cs : List Char) : (dropReturns cs).getLast? ≠ some '\r' := by
  intro h
  rw [dropReturns, dropEndWhile, List.getLast?_reverse] at h
  have hhead := List.head?_dropWhile_not (· = '\r') cs.reverse
  rw [h] at hhead
  simp at hhead

theorem pieces_unlines (h : ∀ line ∈ list, '\n' ∉ line) :
    pieces (unlines list).toList = list := by
  unfold unlines
  rw [String.toList_ofList]
  induction list with
  | nil => rfl
  | cons line list ih =>
    obtain ⟨hline, hlist⟩ := List.forall_mem_cons.1 h
    rw [List.flatMap_cons, List.append_assoc, List.singleton_append, pieces_append_newline hline,
      ih hlist]

theorem lines_unlines (h : ∀ line ∈ list, '\n' ∉ line) :
    lines (unlines list) = list.map dropReturns := by
  rw [lines, pieces_unlines h]

end

end Gridwalk.Text
