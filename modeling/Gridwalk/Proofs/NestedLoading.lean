import Mathlib.Data.List.Dedup
import Mathlib.Data.List.Perm.Subperm
import Gridwalk.Proofs.PlanTrace

/-!
# How deep loading goes

Loading can be written as plain recursion: to load a unit is to go through its items, and to load
another unit where an import line names one. Nothing gets smaller in such a recursion.
`Loader.loadUnit` is this recursion with two safeguards. It gives up when loads are nested more
than `depth` deep, and when a load starts while a unit is being read twice or one that the source
does not have.

`load_eq_nested`: with the number of units plus one as the depth it never gives up, and its answer
is that of `Loader.load`. The units being read are distinct units of the source, so there are at
most as many as the source has.
-/

namespace Gridwalk

open Log (Journal)

/-- The units being read are distinct, and the source has all of them. -/
def Source.Tracked (source : Source) (reading : List String) : Prop :=
  reading.Nodup ∧ ∀ unit ∈ reading, (source.read unit).isOk = true

instance (source : Source) (reading : List String) : Decidable (source.Tracked reading) :=
  inferInstanceAs (Decidable (_ ∧ _))

namespace Loader

-- ---------------------------------------------------------------------------
-- Plain recursion
-- ---------------------------------------------------------------------------

/-- Goes through items that are reached through the import lines `sites`, given how imported units
are loaded, and ends with the fault of the text. -/
def loadItems (loader : Loader) (sites : List Location)
    (loadImport : Location → String → Journal → Option (Except LoadError Registry × Journal))
    (fault : Option LoadError) :
    List Item → Registry → Journal → Option (Except LoadError Registry × Journal)
  | [], reg, journal => some (fault.elim (.ok reg) .error, journal)
  | .box box :: rest, reg, journal =>
    match loader.register box reg journal with
    | (.error error, journal) => some (.error error, journal)
    | (.ok reg, journal) => loader.loadItems sites loadImport fault rest reg journal
  | .stray place blank :: rest, reg, journal =>
    if loader.strict && !blank then some (.error (.strayText place), journal)
    else
      loader.loadItems sites loadImport fault rest reg <| journal.note .trace target fun _ =>
        s!"{place.unit}:{place.line}: ignoring text outside codebox"
  | .imports place unit :: rest, reg, journal =>
    let journal := journal.note .debug target fun _ =>
      s!"{place.unit}:{place.line}: importing '{unit}'"
    match loadImport place unit journal with
    | none => none
    | some (.error error, journal) => some (.error error, journal)
    | some (.ok imported, journal) =>
      match loader.registerAll (loader.order.list (place :: sites) imported) reg journal with
      | (.error error, journal) => some (.error error, journal)
      | (.ok reg, journal) => loader.loadItems sites loadImport fault rest reg journal

/-- Loads a unit while those of `reading` are being read. Without an answer, loads were nested too
deep or the units being read were not as they should be. -/
def loadUnit (loader : Loader) (source : Source) : (depth : Nat) → List Location → List String →
    String → Journal → Option (Except LoadError Registry × Journal)
  | 0, _, _, _, _ => none
  | depth + 1, sites, reading, unit, journal =>
    if source.Tracked reading then
      match source.enter reading unit with
      | .error error => some (.error error, journal)
      | .ok outline =>
        loader.loadItems sites
          (fun place => loader.loadUnit source depth (place :: sites) (reading ++ [unit]))
          outline.fault outline.items ∅ journal
    else none

def loadNested (loader : Loader) (source : Source) (depth : Nat) (unit : String)
    (journal : Journal) : Option (Except LoadError Registry × Journal) :=
  let journal := journal.note .debug target fun _ => s!"loading unit '{unit}'"
  match loader.loadUnit source depth [] [] unit journal with
  | none => none
  | some (.error error, journal) => some (.error error, journal)
  | some (.ok reg, journal) =>
    some (.ok reg, journal.note .debug target fun _ =>
      s!"unit '{unit}' loaded: {reg.size} codeboxes")

end Loader

-- ---------------------------------------------------------------------------
-- The recursion follows the plan
-- ---------------------------------------------------------------------------

section
variable {source : Source} {reading names : List String} {unit : String} {outline : Outline}

theorem Source.Tracked.append (h : source.Tracked reading)
    (he : source.enter reading unit = .ok outline) : source.Tracked (reading ++ [unit]) := by
  obtain ⟨-, text, hr, -⟩ := enter_eq_ok_iff.1 he
  refine ⟨nodup_concat_of_enter he h.1, ?_⟩
  intro other hm
  rcases List.mem_append.1 hm with hm | hm
  · exact h.2 other hm
  · rw [List.mem_singleton.1 hm, hr]
    rfl

theorem Source.mem_of_read_ofUnits {units : List (String × String)}
    (h : ((Source.ofUnits units).read unit).isOk = true) : unit ∈ units.map (·.1) := by
  cases hl : lookup? units unit with
  | none =>
    unfold ofUnits ofTexts at h
    simp only [hl] at h
    nomatch h
  | some text =>
    obtain ⟨before, after, he, -⟩ := List.lookup_eq_some_iff.1 hl
    have hm : (unit, text) ∈ units.reverse := by simp [he]
    exact List.mem_map.2 ⟨_, List.mem_reverse.1 hm, rfl⟩

theorem Source.Tracked.length_le (h : source.Tracked reading)
    (hnames : ∀ unit, (source.read unit).isOk = true → unit ∈ names) :
    reading.length ≤ names.dedup.length := by
  have hsub : reading ⊆ names.dedup :=
    fun unit hm => List.mem_dedup.2 (hnames unit (h.2 unit hm))
  exact (h.1.subperm hsub).length_le

end

namespace Loader

section
variable {loader : Loader} {source : Source} {reading names : List String} {sites : List Location}

theorem loadItems_eq_follow
    {loadImport : Location → String → Journal → Option (Except LoadError Registry × Journal)}
    {items : List Item} {fault : Option LoadError} {h} {reg : Registry} {journal : Journal}
    (himport : ∀ place target journal, loadImport place target journal =
      some (loader.follow (place :: sites) (source.planWithin reading target) ∅ journal)) :
    loader.loadItems sites loadImport fault items reg journal =
      some (loader.follow sites (source.expand reading items fault h) reg journal) := by
  induction items generalizing reg journal with
  | nil => cases fault <;> simp [loadItems, Source.expand_nil, follow]
  | cons item rest ih =>
    cases item with
    | box codebox =>
      rcases hr : loader.register codebox reg journal with ⟨_ | _, journal'⟩
      · simp only [loadItems, Source.expand_box, follow, hr]
      · simp only [loadItems, Source.expand_box, follow, hr]
        exact ih
    | stray place blank =>
      simp only [loadItems, Source.expand_stray, follow]
      split
      next => rfl
      next => exact ih
    | imports place target =>
      simp only [loadItems, Source.expand_imports, follow, himport]
      rcases loader.follow (place :: sites) (source.planWithin reading target) ∅ _ with
        ⟨_ | imported, journal'⟩
      · rfl
      · rcases hr : loader.registerAll (loader.order.list (place :: sites) imported) reg
          journal' with ⟨_ | _, journal''⟩
        · simp only [hr]
        · simp only [hr]
          exact ih

theorem loadUnit_eq_follow {depth : Nat} {unit : String} {journal : Journal}
    (hnames : ∀ unit, (source.read unit).isOk = true → unit ∈ names)
    (ht : source.Tracked reading) (hd : names.dedup.length < depth + reading.length) :
    loader.loadUnit source depth sites reading unit journal =
      some (loader.follow sites (source.planWithin reading unit) ∅ journal) := by
  induction depth generalizing sites reading unit journal with
  | zero =>
    have hle := ht.length_le hnames
    omega
  | succ depth ih =>
    rw [loadUnit, if_pos ht]
    cases he : source.enter reading unit with
    | error error => rw [Source.planWithin_of_error he, follow]
    | ok outline =>
      rw [Source.planWithin_of_ok he]
      refine loadItems_eq_follow ?_
      intro place target journal
      refine ih (ht.append he) ?_
      rw [List.length_append, List.length_singleton]
      omega

end

/-- For every source of named texts, plain recursion that is nested no deeper than the number of
units plus one, and that starts no load unless the units being read are distinct units of the
source, always has an answer, which is that of the load. -/
theorem load_eq_nested (loader : Loader) (units : List (String × String)) (unit : String)
    (journal : Journal) (more : Nat) :
    loader.loadNested (.ofUnits units) ((units.map (·.1)).dedup.length + 1 + more) unit journal =
      some (loader.load (.ofUnits units) unit journal) := by
  have ht : (Source.ofUnits units).Tracked [] := ⟨List.nodup_nil, fun _ hm => nomatch hm⟩
  have hnested : ∀ journal, loader.loadUnit (.ofUnits units)
      ((units.map (·.1)).dedup.length + 1 + more) [] [] unit journal =
        some (loader.follow [] ((Source.ofUnits units).plan unit) ∅ journal) := by
    intro journal
    refine loadUnit_eq_follow (fun _ => Source.mem_of_read_ofUnits) ht ?_
    rw [List.length_nil]
    omega
  simp only [loadNested, load, hnested]
  split <;> simp_all

end Loader

end Gridwalk
