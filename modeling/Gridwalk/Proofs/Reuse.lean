import Gridwalk.Proofs.Logging
import Gridwalk.Proofs.NestedLoading

/-!
# Loading again and again

A loader that is kept for further loads remembers which units it is reading. `Loader.readUnit`
loads in this way: it adds a unit to those being read before it goes through the items of its text,
and takes the last one off again when it is done, whatever came of it. An import line that cannot
be loaded stops the loads around it where they are, each with its unit still on the list.

`readUnit_restores`: no load leaves a trace on the list. So a loader answers every load as one that
has loaded nothing before, and is reading nothing afterwards (`loader_is_reusable`).
-/

namespace Gridwalk

open Log (Journal)

namespace Loader

/-- What a loader carries from one load to the next. The units being read are listed outermost
first. -/
structure State where
  reading : List String
  journal : Journal

namespace State

def note (state : State) (level : Log.Level) (text : Unit → String) : State :=
  { state with journal := state.journal.note level target text }

def push (state : State) (unit : String) : State :=
  { state with reading := state.reading ++ [unit] }

def pop (state : State) : State :=
  { state with reading := state.reading.dropLast }

end State

-- ---------------------------------------------------------------------------
-- Loads with a list that is kept
-- ---------------------------------------------------------------------------

/-- Goes through items as `loadItems` does. Where it fails, the state is left as it is. -/
def readItems (loader : Loader) (sites : List Location)
    (readImport : Location → String → State → Option (Except LoadError Registry × State))
    (fault : Option LoadError) :
    List Item → Registry → State → Option (Except LoadError Registry × State)
  | [], reg, state => some (fault.elim (.ok reg) .error, state)
  | .box box :: rest, reg, state =>
    match loader.register box reg state.journal with
    | (.error error, journal) => some (.error error, { state with journal })
    | (.ok reg, journal) =>
      loader.readItems sites readImport fault rest reg { state with journal }
  | .stray place blank :: rest, reg, state =>
    if loader.strict && !blank then some (.error (.strayText place), state)
    else
      loader.readItems sites readImport fault rest reg <| state.note .trace fun _ =>
        s!"{place.unit}:{place.line}: ignoring text outside codebox"
  | .imports place unit :: rest, reg, state =>
    let state := state.note .debug fun _ => s!"{place.unit}:{place.line}: importing '{unit}'"
    match readImport place unit state with
    | none => none
    | some (.error error, state) => some (.error error, state)
    | some (.ok imported, state) =>
      match loader.registerAll (loader.order.list (place :: sites) imported) reg state.journal with
      | (.error error, journal) => some (.error error, { state with journal })
      | (.ok reg, journal) =>
        loader.readItems sites readImport fault rest reg { state with journal }

/-- Loads a unit. Without an answer, loads were nested more than `depth` deep. -/
def readUnit (loader : Loader) (source : Source) : (depth : Nat) → List Location → String →
    State → Option (Except LoadError Registry × State)
  | 0, _, _, _ => none
  | depth + 1, sites, unit, state =>
    match source.enter state.reading unit with
    | .error error => some (.error error, state)
    | .ok outline =>
      (loader.readItems sites (fun place => loader.readUnit source depth (place :: sites))
        outline.fault outline.items ∅ (state.push unit)).map fun (result, state) =>
          (result, state.pop)

def loadFrom (loader : Loader) (source : Source) (depth : Nat) (unit : String) (state : State) :
    Option (Except LoadError Registry × State) :=
  let state := state.note .debug fun _ => s!"loading unit '{unit}'"
  match loader.readUnit source depth [] unit state with
  | none => none
  | some (.error error, state) => some (.error error, state)
  | some (.ok reg, state) =>
    some (.ok reg, state.note .debug fun _ => s!"unit '{unit}' loaded: {reg.size} codeboxes")

/-- Loads units in turn, whatever comes of each. Of every load there is its result and the units
that are being read after it. -/
def loadEach (loader : Loader) (source : Source) (depth : Nat) :
    List String → State → Option (List (Except LoadError Registry × List String) × State)
  | [], state => some ([], state)
  | unit :: units, state =>
    match loader.loadFrom source depth unit state with
    | none => none
    | some (result, state) =>
      (loader.loadEach source depth units state).map fun (answers, last) =>
        ((result, state.reading) :: answers, last)

-- ---------------------------------------------------------------------------
-- The list is restored
-- ---------------------------------------------------------------------------

/-- Where `load` has an answer `read` has the same one, and the units being read are those that
were being read before. -/
def Restores (reading : List String)
    (load : Journal → Option (Except LoadError Registry × Journal))
    (read : State → Option (Except LoadError Registry × State)) : Prop :=
  ∀ ⦃journal result journal'⦄, load journal = some (result, journal') →
    read ⟨reading, journal⟩ = some (result, ⟨reading, journal'⟩)

theorem readItems_restores {loader : Loader} {sites : List Location} {reading : List String}
    {loadImport : Location → String → Journal → Option (Except LoadError Registry × Journal)}
    {readImport : Location → String → State → Option (Except LoadError Registry × State)}
    {fault : Option LoadError} {items : List Item} {reg : Registry}
    (himport : ∀ place unit, Restores reading (loadImport place unit) (readImport place unit)) :
    Restores reading (loader.loadItems sites loadImport fault items reg)
      (loader.readItems sites readImport fault items reg) := by
  intro journal result journal' h
  induction items generalizing reg journal with
  | nil =>
    cases h
    rfl
  | cons item rest ih =>
    cases item with
    | box box =>
      simp only [loadItems, readItems] at h ⊢
      rcases hr : loader.register box reg journal with ⟨_ | reg, noted⟩
      · simp only [hr] at h ⊢
        cases h
        rfl
      · simp only [hr] at h ⊢
        exact ih h
    | stray place blank =>
      simp only [loadItems, readItems] at h ⊢
      split at h
      next hs =>
        rw [if_pos hs]
        cases h
        rfl
      next hs =>
        rw [if_neg hs]
        exact ih h
    | imports place unit =>
      simp only [loadItems, readItems] at h ⊢
      split at h
      next => cases h
      next error read hl =>
        cases h
        simp only [State.note, himport place unit hl]
      next imported read hl =>
        simp only [State.note, himport place unit hl]
        rcases hr : loader.registerAll (loader.order.list (place :: sites) imported) reg read
          with ⟨_ | reg, noted⟩
        · simp only [hr] at h ⊢
          cases h
          rfl
        · simp only [hr] at h ⊢
          exact ih h

theorem readUnit_restores (loader : Loader) (source : Source) (depth : Nat) (sites : List Location)
    (reading : List String) (unit : String) :
    Restores reading (loader.loadUnit source depth sites reading unit)
      (loader.readUnit source depth sites unit) := by
  induction depth generalizing sites reading unit with
  | zero =>
    intro journal result journal' h
    cases h
  | succ depth ih =>
    intro journal result journal' h
    rw [loadUnit] at h
    rw [readUnit]
    split at h
    next =>
      cases he : source.enter reading unit with
      | error error =>
        simp only [he] at h ⊢
        cases h
        rfl
      | ok outline =>
        simp only [he] at h ⊢
        -- the imports are loaded with the unit itself on the list
        have hitems := readItems_restores (fun place target => ih (place :: sites) _ target) h
        simp only [State.push, hitems, Option.map_some, State.pop, List.dropLast_concat]
    next => cases h

-- ---------------------------------------------------------------------------
-- Loads in turn
-- ---------------------------------------------------------------------------

section
variable {loader : Loader} {units : List (String × String)} {unit : String} {depth : Nat}

theorem readUnit_ofUnits {journal : Journal} (hd : (units.map (·.1)).dedup.length < depth) :
    loader.readUnit (.ofUnits units) depth [] unit ⟨[], journal⟩ =
      some ((loader.follow [] ((Source.ofUnits units).plan unit) ∅ journal).1,
        ⟨[], (loader.follow [] ((Source.ofUnits units).plan unit) ∅ journal).2⟩) := by
  have ht : (Source.ofUnits units).Tracked [] := ⟨List.nodup_nil, by simp⟩
  exact readUnit_restores loader _ depth [] [] unit
    (loadUnit_eq_follow (fun _ => Source.mem_of_read_ofUnits) ht hd)

theorem loadFrom_ofUnits {journal : Journal} (hd : (units.map (·.1)).dedup.length < depth) :
    loader.loadFrom (.ofUnits units) depth unit ⟨[], journal⟩ =
      some ((loader.load (.ofUnits units) unit journal).1,
        ⟨[], (loader.load (.ofUnits units) unit journal).2⟩) := by
  simp only [loadFrom, load, State.note, readUnit_ofUnits hd]
  rcases loader.follow [] ((Source.ofUnits units).plan unit) ∅ _ with ⟨_ | reg, read⟩
  · rfl
  · rfl

end

theorem load_fst_eq (loader : Loader) (source : Source) (unit : String)
    (journal fresh : Journal) :
    (loader.load source unit journal).1 = (loader.load source unit fresh).1 :=
  (load_related (R := fun _ _ => True) loader (fun _ _ _ _ _ => trivial) trivial source unit).1

/-- For every source of named texts and every list of units, a loader that loads them in turn gives
for each of them what a load of its own gives, be it a registry or an error, and after each of them
it is reading nothing. -/
theorem loader_is_reusable (loader : Loader) (units : List (String × String))
    (names : List String) (journal fresh : Journal) (more : Nat) :
    ∃ last, loader.loadEach (.ofUnits units) ((units.map (·.1)).dedup.length + 1 + more) names
        ⟨[], journal⟩ =
      some (names.map fun name => ((loader.load (.ofUnits units) name fresh).1, []),
        ⟨[], last⟩) := by
  induction names generalizing journal with
  | nil => exact ⟨journal, rfl⟩
  | cons name names ih =>
    obtain ⟨last, hrest⟩ := ih (loader.load (.ofUnits units) name journal).2
    refine ⟨last, ?_⟩
    have hd : (units.map (·.1)).dedup.length < (units.map (·.1)).dedup.length + 1 + more := by
      omega
    simp only [loadEach, loadFrom_ofUnits hd, hrest, Option.map_some, List.map_cons,
      load_fst_eq loader _ name journal fresh]

end Loader

end Gridwalk
