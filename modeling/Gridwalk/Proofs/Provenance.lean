import Gridwalk.Proofs.OpenBoxes
import Gridwalk.Proofs.StrictLoading

/-!
# Where a load gets things from

Whatever a load comes across, in either mode and whether or not it succeeds, stands in the text of a
unit in reach: items (`exists_text_of_mem_trace`) and faults (`exists_text_of_fault`). So some line
of such a text closed each codebox that a load meets (`closes_of_mem_trace`) or that it returns
(`closes_of_load`).
-/

namespace Gridwalk

theorem Plan.mem_trace_of_mem_flat {plan : Plan} {boxes : List Codebox} {box : Codebox}
    (h : plan.flat = .ok boxes) (hm : box ∈ boxes) : .ok (.box box) ∈ plan.trace := by
  induction plan generalizing boxes with
  | done =>
    obtain rfl := Except.ok.inj h
    nomatch hm
  | fault error => nomatch h
  | box first next ih =>
    obtain ⟨rest, hrest, rfl⟩ := map_ok.1 h
    rcases List.mem_cons.1 hm with rfl | hm
    · exact List.mem_cons_self
    · exact List.mem_cons_of_mem _ (ih () hrest hm)
  | stray place blank next ih => exact List.mem_cons_of_mem _ (ih () h hm)
  | imports place target body next ihb ihn =>
    obtain ⟨inner, hinner, h⟩ := bind_ok.1 h
    obtain ⟨rest, hrest, rfl⟩ := map_ok.1 h
    refine List.mem_cons_of_mem _ (List.mem_append.2 ?_)
    exact (List.mem_append.1 hm).imp (ihb () hinner) (ihn () hrest)

namespace Source

section
variable {source : Source} {root : String} {item : Item} {error : LoadError}

theorem exists_text_of_mem_trace (h : .ok item ∈ (source.plan root).trace) :
    ∃ unit text, source.Reaches root unit ∧ source.read unit = .ok text ∧
      item ∈ (Outline.ofText unit text).items := by
  obtain ⟨reading, unit, ho, hs⟩ := mem_trace_plan_iff.1 h
  cases hs with
  | item entered shown =>
    obtain ⟨-, text, htext, rfl⟩ := enter_eq_ok_iff.1 entered
    exact ⟨unit, text, ho.reaches, htext, shown⟩

/-- A codebox of a plan was closed by a line of a unit in reach. -/
theorem closes_of_mem_trace {box : Codebox} (h : .ok (.box box) ∈ (source.plan root).trace) :
    ∃ unit text draft, source.Reaches root unit ∧ source.read unit = .ok text ∧
      Outline.Closes unit (Text.lines text) draft box := by
  obtain ⟨unit, text, hreach, htext, hitem⟩ := exists_text_of_mem_trace h
  obtain ⟨draft, hcloses⟩ := Outline.closes_of_mem_items .top hitem
  exact ⟨unit, text, draft, hreach, htext, hcloses⟩

/-- A fault that has a place stands in a text; the others say that there is no text to read. -/
theorem exists_text_of_fault (h : .error error ∈ (source.plan root).trace) :
    error.location? = none ∨ ∃ unit text, source.Reaches root unit ∧
      source.read unit = .ok text ∧ (Outline.ofText unit text).fault = some error := by
  obtain ⟨reading, unit, ho, hs⟩ := mem_trace_plan_iff.1 h
  cases hs with
  | refused entered =>
    left
    rcases enter_eq_error_iff.1 entered with ⟨-, rfl⟩ | ⟨-, reason, -, rfl⟩ <;> rfl
  | fault entered shown =>
    obtain ⟨-, text, htext, rfl⟩ := enter_eq_ok_iff.1 entered
    exact .inr ⟨unit, text, ho.reaches, htext, shown⟩

end

end Source

namespace Loader

section
variable {loader : Loader} {source : Source} {unit : String} {journal : Log.Journal}
  {reg : Registry} {box : Codebox}

theorem flat_of_load (h : (loader.load source unit journal).1 = .ok reg) :
    ∃ boxes, (source.plan unit).flat = .ok boxes ∧ reg = .ofList boxes := by
  cases hs : loader.strict with
  | true =>
    obtain ⟨boxes, hflat, -, -, rfl⟩ := (load_strict_ok_iff hs).1 h
    exact ⟨boxes, hflat, rfl⟩
  | false =>
    rw [load_lenient hs] at h
    obtain ⟨boxes, hflat, rfl⟩ := map_ok.1 h
    exact ⟨boxes, hflat, rfl⟩

theorem closes_of_load (h : (loader.load source unit journal).1 = .ok reg)
    (hb : box ∈ reg.boxes) :
    ∃ other text draft, source.Reaches unit other ∧ source.read other = .ok text ∧
      Outline.Closes other (Text.lines text) draft box := by
  obtain ⟨boxes, hflat, rfl⟩ := flat_of_load h
  have hm : box ∈ boxes := Registry.foldl_insert_subset boxes ∅ hb
  exact Source.closes_of_mem_trace (Plan.mem_trace_of_mem_flat hflat hm)

end

end Loader

end Gridwalk
