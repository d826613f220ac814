import Mathlib.Data.List.Chain
import Mathlib.Logic.Relation
import Gridwalk.Proofs.PlanTrace
import Gridwalk.Proofs.UnitParts

/-!
# The graph of imports

Units import each other by lines that stand outside codeboxes. A lenient load walks along these
edges depth first, with the units being read as its path, and stops at the first thing that is
wrong. It succeeds exactly when every unit in reach can be read and is well formed and no unit in
reach imports itself, directly or through others (`lenient_load_iff_acyclic`). A reported cycle is
a cycle of the graph that passes no unit twice.
-/

namespace Gridwalk

open Line (braces)
open Relation (ReflTransGen TransGen)

namespace Source

/-- Outside codeboxes, `unit` has a line that imports `target`, and no line before it breaks a rule
of the format. -/
def Imports (source : Source) (unit target : String) : Prop :=
  ∃ text before rest, source.read unit = .ok text ∧
    Text.lines text = Part.allLines before ++ braces target.toList :: rest

def Reaches (source : Source) : String → String → Prop := ReflTransGen source.Imports

def WellFormed (source : Source) (unit : String) : Prop :=
  ∃ text parts, source.read unit = .ok text ∧ Text.lines text = Part.allLines parts

section
variable {source : Source} {root unit target : String} {reading : List String}
  {outline : Outline}

theorem imports_iff_of_enter (h : source.enter reading unit = .ok outline) :
    source.Imports unit target ↔ target ∈ outline.targets := by
  obtain ⟨-, text, hr, rfl⟩ := enter_eq_ok_iff.1 h
  rw [Outline.mem_targets_ofText_iff]
  constructor
  · rintro ⟨other, before, rest, hother, hlines⟩
    obtain rfl := Except.ok.inj (hr.symm.trans hother)
    exact ⟨before, rest, hlines⟩
  · rintro ⟨before, rest, hlines⟩
    exact ⟨text, before, rest, hr, hlines⟩

theorem wellFormed_iff_of_enter (h : source.enter reading unit = .ok outline) :
    source.WellFormed unit ↔ outline.fault = none := by
  obtain ⟨-, text, hr, rfl⟩ := enter_eq_ok_iff.1 h
  rw [Outline.fault_ofText_eq_none_iff]
  constructor
  · rintro ⟨other, parts, hother, hlines⟩
    obtain rfl := Except.ok.inj (hr.symm.trans hother)
    exact ⟨parts, hlines⟩
  · rintro ⟨parts, hlines⟩
    exact ⟨text, parts, hr, hlines⟩

-- ---------------------------------------------------------------------------
-- The path of a load
-- ---------------------------------------------------------------------------

theorem Opens.nodup (h : source.Opens root reading unit) : reading.Nodup := by
  induction h with
  | root => exact List.nodup_nil
  | imports _ entered _ ih => exact nodup_concat_of_enter entered ih

theorem Opens.isChain (h : source.Opens root reading unit) :
    (reading ++ [unit]).IsChain source.Imports := by
  induction h with
  | root => exact .singleton _
  | imports _ entered named ih =>
    refine ih.append (.singleton _) ?_
    simpa using (imports_iff_of_enter entered).2 named

theorem Opens.reaches (h : source.Opens root reading unit) : source.Reaches root unit := by
  induction h with
  | root => exact .refl
  | imports _ entered named ih => exact ih.tail ((imports_iff_of_enter entered).2 named)

theorem Opens.transGen (h : source.Opens root reading unit) :
    ∀ other ∈ reading, TransGen source.Imports other unit := by
  induction h with
  | root => exact fun _ hm => nomatch hm
  | imports _ entered named ih =>
    have hi := (imports_iff_of_enter entered).2 named
    intro other hm
    rcases List.mem_append.1 hm with hm | hm
    · exact (ih other hm).tail hi
    · rw [List.mem_singleton.1 hm]
      exact .single hi

theorem Opens.cycle_eq (h : source.Opens root reading unit) (hm : unit ∈ reading) :
    ∃ others, cycle reading unit = unit :: others ++ [unit] ∧ (unit :: others).Nodup ∧
      (cycle reading unit).IsChain source.Imports := by
  obtain ⟨before, others, rfl, hfirst⟩ := List.eq_append_cons_of_mem hm
  have hcycle : cycle (before ++ unit :: others) unit = unit :: others ++ [unit] := by
    unfold cycle
    rw [List.dropWhile_append_of_pos (by grind)]
    simp
  refine ⟨others, hcycle, ?_, ?_⟩
  · exact (List.nodup_append.1 h.nodup).2.1
  · have hchain := h.isChain
    rw [List.append_assoc] at hchain
    rw [hcycle]
    exact hchain.right_of_append

-- ---------------------------------------------------------------------------
-- Loads that nothing stops
-- ---------------------------------------------------------------------------

/-- Whatever the load of `root` opens can be opened and has no fault. -/
def Clear (source : Source) (root : String) : Prop :=
  ∀ reading unit error, source.Opens root reading unit → ¬ source.Shows reading unit (.error error)

theorem Clear.enter (hclear : source.Clear root) (h : source.Opens root reading unit) :
    ∃ outline, source.enter reading unit = .ok outline ∧ outline.fault = none := by
  cases he : source.enter reading unit with
  | error error => exact absurd (.refused he) (hclear _ _ error h)
  | ok outline =>
    refine ⟨outline, rfl, ?_⟩
    cases hf : outline.fault with
    | none => rfl
    | some error => exact absurd (.fault he hf) (hclear _ _ error h)

theorem Clear.imports (hclear : source.Clear root) (h : source.Opens root reading unit)
    (hi : source.Imports unit target) : source.Opens root (reading ++ [unit]) target := by
  obtain ⟨outline, he, -⟩ := hclear.enter h
  exact .imports h he ((imports_iff_of_enter he).1 hi)

theorem Clear.exists_opens (hclear : source.Clear root) (h : source.Reaches root unit) :
    ∃ reading, source.Opens root reading unit := by
  induction h with
  | refl => exact ⟨[], .root⟩
  | tail _ hi ih =>
    obtain ⟨reading, ho⟩ := ih
    exact ⟨_, hclear.imports ho hi⟩

theorem Clear.exists_opens_below (hclear : source.Clear root) (h : source.Opens root reading unit)
    (ht : TransGen source.Imports unit target) :
    ∃ below, source.Opens root below target ∧ unit ∈ below := by
  induction ht with
  | single hi => exact ⟨_, hclear.imports h hi, by simp⟩
  | tail _ hi ih =>
    obtain ⟨below, ho, hm⟩ := ih
    exact ⟨_, hclear.imports ho hi, List.mem_append_left _ hm⟩

theorem clear_iff :
    source.Clear root ↔
      (∀ unit, source.Reaches root unit → source.WellFormed unit) ∧
      ∀ unit, source.Reaches root unit → ¬ TransGen source.Imports unit unit := by
  constructor
  · intro hclear
    refine ⟨?_, ?_⟩
    · intro unit hr
      obtain ⟨reading, ho⟩ := hclear.exists_opens hr
      obtain ⟨outline, he, hf⟩ := hclear.enter ho
      exact (wellFormed_iff_of_enter he).2 hf
    · intro unit hr hcycle
      obtain ⟨reading, ho⟩ := hclear.exists_opens hr
      obtain ⟨below, hbelow, hm⟩ := hclear.exists_opens_below ho hcycle
      obtain ⟨outline, he, -⟩ := hclear.enter hbelow
      exact not_mem_of_enter he hm
  · rintro ⟨hformed, hacyclic⟩ reading unit error ho hs
    have hwell := hformed unit ho.reaches
    cases hs with
    | fault entered shown =>
      have hnone := (wellFormed_iff_of_enter entered).1 hwell
      exact nomatch hnone.symm.trans shown
    | refused entered =>
      rcases enter_eq_error_iff.1 entered with ⟨hm, -⟩ | ⟨-, reason, hr, -⟩
      · exact hacyclic unit ho.reaches (ho.transGen unit hm)
      · obtain ⟨text, -, htext, -⟩ := hwell
        exact nomatch hr.symm.trans htext

end

end Source

namespace Loader

section
variable {loader : Loader} {source : Source} {unit : String} {journal : Log.Journal}

theorem load_fst (loader : Loader) (source : Source) (unit : String) (journal : Log.Journal) :
    ∃ journal', (loader.load source unit journal).1 =
      (loader.follow [] (source.plan unit) ∅ journal').1 := by
  refine ⟨journal.note .debug target fun _ => s!"loading unit '{unit}'", ?_⟩
  simp only [load]
  split
  next hf => rw [hf]
  next hf => rw [hf]

theorem lenient_load_iff_clear (h : loader.strict = false) :
    (∃ reg, (loader.load source unit journal).1 = .ok reg) ↔ source.Clear unit := by
  rw [load_lenient h]
  constructor
  · rintro ⟨reg, hl⟩ reading other error ho hs
    obtain ⟨boxes, hflat, -⟩ := map_ok.1 hl
    exact Plan.not_mem_trace_of_flat hflat error (Source.mem_trace_plan_iff.2 ⟨_, _, ho, hs⟩)
  · intro hclear
    cases hflat : (source.plan unit).flat with
    | ok boxes => exact ⟨_, rfl⟩
    | error error =>
      obtain ⟨reading, other, ho, hs⟩ :=
        Source.mem_trace_plan_iff.1 (Plan.mem_trace_of_flat hflat)
      exact absurd hs (hclear reading other error ho)

theorem opens_of_cycle {chain : List String}
    (h : (loader.load source unit journal).1 = .error (.importCycle chain)) :
    ∃ reading first, source.Opens unit reading first ∧ first ∈ reading ∧
      chain = Source.cycle reading first := by
  obtain ⟨journal', hl⟩ := load_fst loader source unit journal
  rcases follow_error (hl.symm.trans h) with hm | ⟨_, he⟩ | ⟨_, _, he⟩
  · obtain ⟨reading, first, ho, hs⟩ := Source.mem_trace_plan_iff.1 hm
    cases hs with
    | refused entered =>
      rcases Source.enter_eq_error_iff.1 entered with ⟨hm, he⟩ | ⟨-, _, -, he⟩
      · exact ⟨reading, first, ho, hm, LoadError.importCycle.inj he⟩
      · nomatch he
    | fault entered shown =>
      obtain ⟨-, text, -, rfl⟩ := Source.enter_eq_ok_iff.1 entered
      obtain ⟨place, hplace⟩ := Outline.location?_of_fault_scan shown
      nomatch hplace
  · nomatch he
  · nomatch he

end

/-- A lenient load succeeds if and only if every unit in reach can be read and is well formed, and
no cycle is in reach. An import cycle that a load reports, in either mode, is a cycle of the graph
that passes no unit twice and is in reach of the loaded unit. -/
theorem lenient_load_iff_acyclic (source : Source) (unit : String) (order : Enumeration)
    (journal : Log.Journal) :
    ((∃ reg, (load ⟨false, order⟩ source unit journal).1 = .ok reg) ↔
      (∀ other, source.Reaches unit other → source.WellFormed other) ∧
      ∀ other, source.Reaches unit other → ¬ TransGen source.Imports other other) ∧
    ∀ strict chain,
      (load ⟨strict, order⟩ source unit journal).1 = .error (.importCycle chain) →
      ∃ first others, chain = first :: others ++ [first] ∧ (first :: others).Nodup ∧
        chain.IsChain source.Imports ∧ source.Reaches unit first := by
  refine ⟨(lenient_load_iff_clear rfl).trans Source.clear_iff, ?_⟩
  intro strict chain h
  obtain ⟨reading, first, ho, hm, rfl⟩ := opens_of_cycle h
  obtain ⟨others, hcycle, hnodup, hchain⟩ := ho.cycle_eq hm
  exact ⟨first, others, hcycle, hnodup, hchain, ho.reaches⟩

end Loader

def Source.ring : Source := .ofUnits
  [("a", "\x7bb\x7d\n"), ("b", "# notes\n\x7bc\x7d\n"), ("c", "\x7bb\x7d\n")]

theorem Loader.lenient_load_ring :
    (Loader.lenient.load Source.ring "a" (.start .warn)).1 =
      .error (.importCycle ["b", "c", "b"]) ∧
    ["b", "c", "b"].IsChain Source.ring.Imports ∧ Source.ring.Reaches "a" "b" := by
  obtain ⟨_, ha⟩ := Source.exists_planWithin_eq (show Source.ring.enter [] "a" = .ok
    ⟨[.imports ⟨"a", 1⟩ "b"], none⟩ by rfl)
  obtain ⟨_, hb⟩ := Source.exists_planWithin_eq (show Source.ring.enter ["a"] "b" = .ok
    ⟨[.stray ⟨"b", 1⟩ false, .imports ⟨"b", 2⟩ "c"], none⟩ by rfl)
  obtain ⟨_, hc⟩ := Source.exists_planWithin_eq (show Source.ring.enter ["a", "b"] "c" = .ok
    ⟨[.imports ⟨"c", 1⟩ "b"], none⟩ by rfl)
  have hagain := Source.planWithin_of_error (show Source.ring.enter ["a", "b", "c"] "b" =
    .error (.importCycle ["b", "c", "b"]) by rfl)
  have hl : (Loader.lenient.load Source.ring "a" (.start .warn)).1 =
      .error (.importCycle ["b", "c", "b"]) := by
    rw [load_lenient rfl]
    simp only [Source.plan, ha, hb, hc, hagain, Source.expand_imports, Source.expand_stray,
      Plan.flat, List.nil_append, List.cons_append]
    rfl
  obtain ⟨-, hcycle⟩ := lenient_load_iff_acyclic Source.ring "a" .byKey (.start .warn)
  obtain ⟨first, others, hfirst, -, hchain, hreach⟩ := hcycle false _ hl
  obtain ⟨rfl, -⟩ := List.cons.inj hfirst
  exact ⟨hl, hchain, hreach⟩

end Gridwalk
