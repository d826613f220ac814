import Gridwalk.Proofs.Inlining

/-!
# What a load comes across

The trace of a plan is everything in it, in order: the items of every unit that is opened and the
faults. A load can only fail with a fault of the trace, or in strict mode with one of its own two
errors (`follow_error`).

`Source.Opens` says which units the load of a unit opens, and while reading which others. The trace
of a unit's plan is what the units show that are opened so (`mem_trace_plan_iff`).
-/

namespace Gridwalk

-- ---------------------------------------------------------------------------
-- Traces
-- ---------------------------------------------------------------------------

/-- The items and faults of a plan in order, those of imports after the import line. -/
def Plan.trace : Plan → List (Except LoadError Item)
  | .done => []
  | .fault error => [.error error]
  | .box codebox next => .ok (.box codebox) :: (next ()).trace
  | .stray place blank next => .ok (.stray place blank) :: (next ()).trace
  | .imports place target body next =>
    .ok (.imports place target) :: ((body ()).trace ++ (next ()).trace)

theorem Plan.mem_trace_of_flat {plan : Plan} {error : LoadError} (h : plan.flat = .error error) :
    .error error ∈ plan.trace := by
  induction plan with
  | done => nomatch h
  | fault other =>
    obtain rfl := Except.error.inj h
    exact List.mem_singleton.2 rfl
  | box codebox next ih =>
    simp only [flat] at h
    cases hn : (next ()).flat with
    | ok rest => simp [hn, Except.map] at h
    | error other =>
      rw [hn] at h
      exact List.mem_cons_of_mem _ (ih () (hn.trans h))
  | stray place blank next ih => exact List.mem_cons_of_mem _ (ih () h)
  | imports place target body next ihb ihn =>
    simp only [flat] at h
    cases hb : (body ()).flat with
    | error other =>
      rw [hb] at h
      exact List.mem_cons_of_mem _ (List.mem_append_left _ (ihb () (hb.trans h)))
    | ok inner =>
      cases hn : (next ()).flat with
      | ok rest => simp [hb, hn, Except.map, Except.bind] at h
      | error other =>
        rw [hb, hn] at h
        exact List.mem_cons_of_mem _ (List.mem_append_right _ (ihn () (hn.trans h)))

theorem Plan.not_mem_trace_of_flat {plan : Plan} {boxes : List Codebox}
    (h : plan.flat = .ok boxes) (error : LoadError) : .error error ∉ plan.trace := by
  induction plan generalizing boxes with
  | done => exact List.not_mem_nil
  | fault other => nomatch h
  | box codebox next ih =>
    obtain ⟨rest, hn, -⟩ := map_ok.1 h
    simpa [trace] using ih () hn
  | stray place blank next ih => simpa [trace] using ih () h
  | imports place target body next ihb ihn =>
    obtain ⟨inner, hb, h⟩ := bind_ok.1 h
    obtain ⟨rest, hn, -⟩ := map_ok.1 h
    simpa [trace] using ⟨ihb () hb, ihn () hn⟩

namespace Loader

def IsStrictError (error : LoadError) : Prop :=
  (∃ place, error = .strayText place) ∨ ∃ key place, error = .duplicateCommand key place

section
variable {loader : Loader} {error : LoadError}

theorem register_error {box : Codebox} {reg : Registry} {journal : Log.Journal}
    (h : (loader.register box reg journal).1 = .error error) : IsStrictError error := by
  unfold register at h
  split at h
  next => nomatch h
  next =>
    split at h
    next => nomatch h
    next =>
      split at h
      next => exact .inr ⟨_, _, (Except.error.inj h).symm⟩
      next => nomatch h

theorem registerAll_error {boxes : List Codebox} {reg : Registry} {journal : Log.Journal}
    (h : (loader.registerAll boxes reg journal).1 = .error error) : IsStrictError error := by
  induction boxes generalizing reg journal with
  | nil => nomatch h
  | cons box boxes ih =>
    rw [registerAll] at h
    split at h
    next hr => exact register_error (congrArg Prod.fst hr |>.trans h)
    next => exact ih h

/-- A load fails with a fault of the plan, or because it is strict. -/
theorem follow_error {sites : List Location} {plan : Plan} {reg : Registry} {journal : Log.Journal}
    (h : (loader.follow sites plan reg journal).1 = .error error) :
    .error error ∈ plan.trace ∨ IsStrictError error := by
  induction plan generalizing sites reg journal with
  | done => nomatch h
  | fault other =>
    obtain rfl := Except.error.inj h
    exact .inl (List.mem_singleton.2 rfl)
  | box codebox next ih =>
    simp only [follow] at h
    split at h
    next hr => exact .inr (register_error (congrArg Prod.fst hr |>.trans h))
    next => exact (ih () h).imp_left (List.mem_cons_of_mem _)
  | stray place blank next ih =>
    simp only [follow] at h
    split at h
    next => exact .inr (.inl ⟨place, (Except.error.inj h).symm⟩)
    next => exact (ih () h).imp_left (List.mem_cons_of_mem _)
  | imports place target body next ihb ihn =>
    simp only [follow] at h
    split at h
    next hb =>
      refine (ihb () (congrArg Prod.fst hb |>.trans h)).imp_left ?_
      intro hm
      exact List.mem_cons_of_mem _ (List.mem_append_left _ hm)
    next =>
      split at h
      next hr => exact .inr (registerAll_error (congrArg Prod.fst hr |>.trans h))
      next =>
        refine (ihn () h).imp_left ?_
        intro hm
        exact List.mem_cons_of_mem _ (List.mem_append_right _ hm)

end

end Loader

-- ---------------------------------------------------------------------------
-- Opened units
-- ---------------------------------------------------------------------------

namespace Source

/-- `Opens source root reading unit`: if nothing stops it before, the load of `root` comes to open
`unit` while the units of `reading`, outermost first, are being read. -/
inductive Opens (source : Source) (root : String) : List String → String → Prop
  | root : Opens source root [] root
  | imports {reading unit outline target} (opened : Opens source root reading unit)
    (entered : source.enter reading unit = .ok outline) (named : target ∈ outline.targets) :
    Opens source root (reading ++ [unit]) target

/-- What opening `unit` brings to light: its own items and fault, or why it cannot be opened. -/
inductive Shows (source : Source) (reading : List String) (unit : String) :
    Except LoadError Item → Prop
  | refused {error} (entered : source.enter reading unit = .error error) :
    Shows source reading unit (.error error)
  | item {outline item} (entered : source.enter reading unit = .ok outline)
    (shown : item ∈ outline.items) : Shows source reading unit (.ok item)
  | fault {outline error} (entered : source.enter reading unit = .ok outline)
    (shown : outline.fault = some error) : Shows source reading unit (.error error)

section
variable {source : Source} {root unit : String} {reading : List String}
  {items : List Item} {fault : Option LoadError} {entry : Except LoadError Item}
  {outline : Outline} {error : LoadError}

theorem enter_eq_ok_iff :
    source.enter reading unit = .ok outline ↔
      unit ∉ reading ∧ ∃ text, source.read unit = .ok text ∧ outline = .ofText unit text := by
  unfold enter
  split
  next hm => simp [hm]
  next hm =>
    split
    next reason hr => simp [hr]
    next text hr => simp [hr, hm, eq_comm]

theorem enter_eq_error_iff :
    source.enter reading unit = .error error ↔
      (unit ∈ reading ∧ error = .importCycle (cycle reading unit)) ∨
      (unit ∉ reading ∧ ∃ reason, source.read unit = .error reason ∧
        error = .unreadable (source.fileName unit) reason) := by
  unfold enter
  split
  next hm => simp [hm, eq_comm]
  next hm =>
    split
    next reason hr => simp [hr, hm, eq_comm]
    next text hr => simp [hr, hm]

theorem nodup_concat_of_enter (h : source.enter reading unit = .ok outline)
    (hn : reading.Nodup) : (reading ++ [unit]).Nodup := by
  refine List.nodup_append.2 ⟨hn, by simp, ?_⟩
  rintro a ha b hb rfl
  exact not_mem_of_enter h (List.mem_singleton.1 hb ▸ ha)

theorem mem_trace_expand_iff {h} :
    entry ∈ (source.expand reading items fault h).trace ↔
      (∃ item ∈ items, entry = .ok item) ∨
      (∃ target ∈ items.filterMap Item.target?,
        entry ∈ (source.planWithin reading target).trace) ∨
      ∃ error, fault = some error ∧ entry = .error error := by
  induction items with
  | nil => cases fault <;> simp [expand_nil, Plan.trace]
  | cons item rest ih =>
    cases item with
    | box codebox => simp [expand_box, Plan.trace, ih, Item.target?, or_assoc]
    | stray place blank => simp [expand_stray, Plan.trace, ih, Item.target?, or_assoc]
    | imports place target =>
      simp only [expand_imports, Plan.trace, List.mem_cons, List.mem_append, ih,
        List.filterMap_cons, Item.target?, exists_eq_or_imp]
      grind

theorem mem_trace_planWithin_iff :
    entry ∈ (source.planWithin reading unit).trace ↔
      source.Shows reading unit entry ∨
      ∃ outline target, source.enter reading unit = .ok outline ∧ target ∈ outline.targets ∧
        entry ∈ (source.planWithin (reading ++ [unit]) target).trace := by
  cases he : source.enter reading unit with
  | error error =>
    rw [planWithin_of_error he]
    constructor
    · intro hm
      rw [List.mem_singleton.1 hm]
      exact .inl (.refused he)
    · rintro (hs | ⟨outline, target, hf, -⟩)
      · cases hs with
        | refused entered =>
          obtain rfl := Except.error.inj (he.symm.trans entered)
          exact List.mem_singleton.2 rfl
        | item entered | fault entered => exact nomatch he.symm.trans entered
      · nomatch hf
  | ok outline =>
    rw [planWithin_of_ok he]
    refine mem_trace_expand_iff.trans ⟨?_, ?_⟩
    · rintro (⟨item, hi, rfl⟩ | ⟨target, ht, hm⟩ | ⟨error, hf, rfl⟩)
      · exact .inl (.item he hi)
      · exact .inr ⟨outline, target, rfl, ht, hm⟩
      · exact .inl (.fault he hf)
    · rintro (hs | ⟨other, target, hsame, ht, hm⟩)
      · cases hs with
        | refused entered => exact nomatch he.symm.trans entered
        | item entered shown =>
          obtain rfl := Except.ok.inj (he.symm.trans entered)
          exact .inl ⟨_, shown, rfl⟩
        | fault entered shown =>
          obtain rfl := Except.ok.inj (he.symm.trans entered)
          exact .inr (.inr ⟨_, shown, rfl⟩)
      · obtain rfl := Except.ok.inj hsame
        exact .inr (.inl ⟨target, ht, hm⟩)

theorem Opens.trace_subset (h : source.Opens root reading unit) :
    (source.planWithin reading unit).trace ⊆ (source.plan root).trace := by
  induction h with
  | root => exact List.Subset.refl _
  | imports _ entered named ih =>
    intro entry hm
    exact ih (mem_trace_planWithin_iff.2 (.inr ⟨_, _, entered, named, hm⟩))

theorem Opens.exists_of_mem_trace (h : source.Opens root reading unit) (hn : unit ∈ source.names)
    (hm : entry ∈ (source.planWithin reading unit).trace) :
    ∃ reading unit, source.Opens root reading unit ∧ source.Shows reading unit entry := by
  -- on the names that may still be imported
  induction hcount : source.unread reading using Nat.strongRecOn generalizing reading unit with
  | ind count ih =>
    rcases mem_trace_planWithin_iff.1 hm with hs | ⟨outline, target, he, ht, hm⟩
    · exact ⟨reading, unit, h, hs⟩
    · have hlt : source.unread (reading ++ [unit]) < count :=
        hcount ▸ unread_append_lt hn (not_mem_of_enter he)
      exact ih _ hlt (.imports h he ht) (mem_names_of_enter he target ht) hm rfl

theorem mem_trace_plan_iff :
    entry ∈ (source.plan root).trace ↔
      ∃ reading unit, source.Opens root reading unit ∧ source.Shows reading unit entry := by
  constructor
  · intro hm
    rcases mem_trace_planWithin_iff.1 hm with hs | ⟨outline, target, he, ht, hm⟩
    · exact ⟨[], root, .root, hs⟩
    · exact (Opens.imports .root he ht).exists_of_mem_trace (mem_names_of_enter he target ht) hm
  · rintro ⟨reading, unit, ho, hs⟩
    exact ho.trace_subset (mem_trace_planWithin_iff.2 (.inl hs))

end

end Source

end Gridwalk
