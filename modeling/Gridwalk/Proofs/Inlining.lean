import Gridwalk.Load
import Gridwalk.Proofs.RegistryLaws

/-!
# Imports as inlining

`Source.flat` is the list of codeboxes that a unit amounts to when every import line is replaced by
what the imported unit amounts to; it is the same at every depth that the imports fit in. A lenient
load finds, under every key, the last codebox of that list which has the key
(`lenient_load_eq_flat`), in whatever order the codeboxes of each imported registry are registered.

The load makes a registry of every import before it merges it. `follow_lenient` says that this does
not matter: following a plan is inserting the plan's codeboxes, imports inlined, one by one.
-/

namespace Gridwalk

-- ---------------------------------------------------------------------------
-- Flat plans
-- ---------------------------------------------------------------------------

/-- The codeboxes of a plan in order, those of imports in place, or the first fault. -/
def Plan.flat : Plan → Except LoadError (List Codebox)
  | .done => .ok []
  | .fault error => .error error
  | .box codebox next => (next ()).flat.map (codebox :: ·)
  | .stray _ _ next => (next ()).flat
  | .imports _ _ body next => (body ()).flat.bind fun inner => (next ()).flat.map (inner ++ ·)

section
variable {ε α β : Type} {x : Except ε α} {b : β}

theorem map_ok {f : α → β} : x.map f = .ok b ↔ ∃ a, x = .ok a ∧ f a = b := by
  cases x <;> simp [Except.map]

theorem bind_ok {f : α → Except ε β} : x.bind f = .ok b ↔ ∃ a, x = .ok a ∧ f a = .ok b := by
  cases x <;> simp [Except.bind]

end

namespace Loader

section
variable {loader : Loader}

theorem register_lenient (h : loader.strict = false) (box : Codebox) (reg : Registry)
    (journal : Log.Journal) :
    ∃ journal', loader.register box reg journal = (.ok (reg.insert box), journal') := by
  unfold register
  split
  next => exact ⟨_, rfl⟩
  next =>
    split
    next => exact ⟨_, rfl⟩
    next => simp [h]

theorem registerAll_lenient (h : loader.strict = false) (boxes : List Codebox) (reg : Registry)
    (journal : Log.Journal) :
    ∃ journal', loader.registerAll boxes reg journal = (.ok (boxes.foldl .insert reg), journal') := by
  induction boxes generalizing reg journal with
  | nil => exact ⟨_, rfl⟩
  | cons box boxes ih =>
    obtain ⟨journal', hr⟩ := register_lenient h box reg journal
    rw [registerAll, hr]
    exact ih _ _

/-- Leniently, a plan registers its codeboxes one by one, those of imports in place. -/
theorem follow_lenient (h : loader.strict = false) (sites : List Location) (plan : Plan)
    (reg : Registry) (journal : Log.Journal) :
    ∃ journal', loader.follow sites plan reg journal =
      (plan.flat.map (·.foldl .insert reg), journal') := by
  induction plan generalizing sites reg journal with
  | done => exact ⟨_, rfl⟩
  | fault error => exact ⟨_, rfl⟩
  | box box next ih =>
    obtain ⟨journal', hr⟩ := register_lenient h box reg journal
    obtain ⟨journal'', hn⟩ := ih () sites (reg.insert box) journal'
    refine ⟨journal'', ?_⟩
    simp only [follow, Plan.flat, hr, hn]
    cases (next ()).flat <;> rfl
  | stray place blank next ih =>
    simp only [follow, Plan.flat, h, Bool.false_and, Bool.false_eq_true, ↓reduceIte]
    exact ih ..
  | imports place unit body next ihb ihn =>
    obtain ⟨journal', hb⟩ := ihb () (place :: sites) ∅ (journal.note .debug target fun _ =>
      s!"{place.unit}:{place.line}: importing '{unit}'")
    simp only [follow, Plan.flat, hb]
    cases (body ()).flat with
    | error error => exact ⟨_, rfl⟩
    | ok inner =>
      -- the imported registry holds the last codeboxes of the import; `foldl_insert_of_perm`
      -- exchanges them, in any order, for all codeboxes of the import
      have hperm : (loader.order.list (place :: sites) (inner.foldl .insert ∅)).Perm
          (Registry.ofList inner).boxes := loader.order.perm _ _
      obtain ⟨journal'', hs⟩ := registerAll_lenient h _ reg journal'
      rw [Registry.foldl_insert_of_perm hperm] at hs
      obtain ⟨last, hn⟩ := ihn () sites (inner.foldl .insert reg) journal''
      refine ⟨last, ?_⟩
      simp only [Except.map, Except.bind, hs, hn]
      cases (next ()).flat with
      | error => rfl
      | ok rest => simp

theorem load_lenient (h : loader.strict = false) (source : Source) (unit : String)
    (journal : Log.Journal) :
    (loader.load source unit journal).1 = (source.plan unit).flat.map .ofList := by
  obtain ⟨journal', hf⟩ := follow_lenient h [] (source.plan unit) ∅ (journal.note .debug target
    fun _ => s!"loading unit '{unit}'")
  simp only [load, hf]
  cases (source.plan unit).flat <;> rfl

end

end Loader

-- ---------------------------------------------------------------------------
-- Flat units
-- ---------------------------------------------------------------------------

namespace Source

def splice (flat : String → Option (List Codebox)) : List Item → Option (List Codebox)
  | [] => some []
  | .box codebox :: rest => do return codebox :: (← splice flat rest)
  | .stray _ _ :: rest => splice flat rest
  | .imports _ target :: rest => do return (← flat target) ++ (← splice flat rest)

/-- The codeboxes of a unit in order, with every import line replaced by those of the unit that it
names, if imports are nested less than `depth` deep. -/
def flat (source : Source) : (depth : Nat) → (unit : String) → Option (List Codebox)
  | 0, _ => none
  | depth + 1, unit =>
    match source.read unit with
    | .error _ => none
    | .ok text => splice (source.flat depth) (Outline.ofText unit text).items

section
variable {source : Source} {reading : List String} {items : List Item} {fault : Option LoadError}
  {boxes : List Codebox} {unit : String} {depth : Nat}

theorem flat_of_enter {outline : Outline} (h : source.enter reading unit = .ok outline) :
    source.flat (depth + 1) unit = splice (source.flat depth) outline.items := by
  unfold enter at h
  by_cases hm : unit ∈ reading
  · rw [if_pos hm] at h
    nomatch h
  · rw [if_neg hm] at h
    cases hread : source.read unit with
    | error reason =>
      rw [hread] at h
      nomatch h
    | ok text =>
      rw [hread] at h
      obtain rfl := Except.ok.inj h
      rw [flat, hread]

theorem exists_planWithin_eq (h : source.enter reading unit = .ok ⟨items, fault⟩) :
    ∃ hn, source.planWithin reading unit = source.expand (reading ++ [unit]) items fault hn :=
  ⟨_, planWithin_of_ok h⟩

/-- A plan without faults comes from a text without faults, and amounts to what its items do at
every depth that is enough for its imports. -/
theorem splice_of_expand {h} (hf : (source.expand reading items fault h).flat = .ok boxes) :
    fault = none ∧ ∃ enough, ∀ depth ≥ enough, splice (source.flat depth) items = some boxes := by
  induction reading, items, fault, h using expand.induct source generalizing boxes with
  | case1 reading fault h =>
    rw [expand_nil] at hf
    cases fault with
    | none =>
      obtain rfl := Except.ok.inj hf
      exact ⟨rfl, 0, fun _ _ => rfl⟩
    | some error => nomatch hf
  | case2 reading fault codebox rest h _ ih =>
    rw [expand_box, Plan.flat] at hf
    obtain ⟨rest', hr, rfl⟩ := map_ok.1 hf
    obtain ⟨hnone, enough, hi⟩ := ih hr
    refine ⟨hnone, enough, ?_⟩
    intro depth hd
    rw [splice, hi depth hd]
    rfl
  | case3 reading fault place blank rest h _ ih =>
    rw [expand_stray, Plan.flat] at hf
    exact ih hf
  | case4 reading fault place target rest h _ ihb ihr =>
    rw [expand_imports, Plan.flat] at hf
    obtain ⟨inner, hb, hf⟩ := bind_ok.1 hf
    obtain ⟨rest', hr, rfl⟩ := map_ok.1 hf
    cases he : source.enter reading target with
    | error error =>
      rw [planWithin_of_error he] at hb
      nomatch hb
    | ok outline =>
      rw [planWithin_of_ok he] at hb
      obtain ⟨-, enough, hi⟩ := ihb outline he hb
      obtain ⟨hnone, enough', hi'⟩ := ihr hr
      refine ⟨hnone, max (enough + 1) enough', ?_⟩
      intro depth hd
      obtain ⟨inside, rfl⟩ : ∃ inside, depth = inside + 1 := ⟨depth - 1, by omega⟩
      rw [splice, flat_of_enter he, hi inside (by omega), hi' (inside + 1) (by omega)]
      rfl

theorem flat_of_plan (h : (source.plan unit).flat = .ok boxes) :
    ∃ enough, ∀ depth ≥ enough, source.flat depth unit = some boxes := by
  unfold plan at h
  cases he : source.enter [] unit with
  | error error =>
    rw [planWithin_of_error he] at h
    nomatch h
  | ok outline =>
    rw [planWithin_of_ok he] at h
    obtain ⟨-, enough, hi⟩ := splice_of_expand h
    refine ⟨enough + 1, ?_⟩
    intro depth hd
    obtain ⟨inside, rfl⟩ : ∃ inside, depth = inside + 1 := ⟨depth - 1, by omega⟩
    rw [flat_of_enter he, hi inside (by omega)]

end

end Source

/-- If a lenient load of a unit succeeds, then it does so in every order of the imported codeboxes,
and under each key it finds the last codebox with that key when all imports are inlined. -/
theorem Loader.lenient_load_eq_flat {source : Source} {unit : String} {order : Enumeration}
    {journal : Log.Journal} {reg : Registry}
    (h : (Loader.load ⟨false, order⟩ source unit journal).1 = .ok reg) :
    ∃ boxes, (∃ enough, ∀ depth ≥ enough, source.flat depth unit = some boxes) ∧
      ∀ (order : Enumeration) (journal : Log.Journal), ∃ reg,
        (Loader.load ⟨false, order⟩ source unit journal).1 = .ok reg ∧
        ∀ key, reg.get? key = Registry.lastWith key boxes := by
  rw [load_lenient rfl] at h
  obtain ⟨boxes, hb, -⟩ := map_ok.1 h
  refine ⟨boxes, Source.flat_of_plan hb, ?_⟩
  intro order journal
  refine ⟨.ofList boxes, ?_, ?_⟩
  · rw [load_lenient rfl, hb]
    rfl
  · exact Registry.get?_ofList boxes

def Source.diamond : Source := .ofUnits
  [("a", "###\n#f#\n#v#\n#@#\n###\n"),
    ("b", "\x7ba\x7d\n"),
    ("m", "\x7ba\x7d\n###\n#f#\n#v#\n#~#\n###\n\x7bb\x7d\n")]

def Source.diamondBoxes : List Codebox :=
  [⟨"f", 1, 0, [['@']], ⟨"a", 1⟩⟩, ⟨"f", 1, 0, [['~']], ⟨"m", 2⟩⟩, ⟨"f", 1, 0, [['@']], ⟨"a", 1⟩⟩]

theorem Loader.lenient_load_diamond :
    Source.diamond.flat 3 "m" = some Source.diamondBoxes ∧
    ∀ (order : Enumeration) (journal : Log.Journal), ∃ reg,
      (Loader.load ⟨false, order⟩ Source.diamond "m" journal).1 = .ok reg ∧
      reg.get? (.command 'f') = some ⟨"f", 1, 0, [['@']], ⟨"a", 1⟩⟩ := by
  obtain ⟨_, hm⟩ := Source.exists_planWithin_eq (show Source.diamond.enter [] "m" = .ok
    ⟨[.imports ⟨"m", 1⟩ "a", .box ⟨"f", 1, 0, [['~']], ⟨"m", 2⟩⟩, .imports ⟨"m", 7⟩ "b"], none⟩
    by rfl)
  obtain ⟨_, ha⟩ := Source.exists_planWithin_eq (show Source.diamond.enter ["m"] "a" = .ok
    ⟨[.box ⟨"f", 1, 0, [['@']], ⟨"a", 1⟩⟩], none⟩ by rfl)
  obtain ⟨_, hb⟩ := Source.exists_planWithin_eq (show Source.diamond.enter ["m"] "b" = .ok
    ⟨[.imports ⟨"b", 1⟩ "a"], none⟩ by rfl)
  obtain ⟨_, hba⟩ := Source.exists_planWithin_eq (show Source.diamond.enter ["m", "b"] "a" = .ok
    ⟨[.box ⟨"f", 1, 0, [['@']], ⟨"a", 1⟩⟩], none⟩ by rfl)
  have hp : (Source.diamond.plan "m").flat = .ok Source.diamondBoxes := by
    simp only [Source.plan, hm, ha, hb, hba, Source.expand_imports, Source.expand_box,
      Source.expand_nil, Plan.flat, List.nil_append, List.cons_append]
    rfl
  have hl : (Loader.lenient.load Source.diamond "m" (.start .warn)).1 =
      .ok (.ofList Source.diamondBoxes) := by
    rw [load_lenient rfl, hp]
    rfl
  obtain ⟨boxes, ⟨enough, hflat⟩, hload⟩ := lenient_load_eq_flat hl
  obtain ⟨enough', hflat'⟩ := Source.flat_of_plan hp
  obtain rfl : boxes = Source.diamondBoxes := by
    have hsame := (hflat (enough + enough') (by omega)).symm.trans (hflat' _ (by omega))
    exact Option.some.inj hsame
  refine ⟨by rfl, ?_⟩
  intro order journal
  obtain ⟨reg, hreg, hget⟩ := hload order journal
  exact ⟨reg, hreg, (hget _).trans (by decide)⟩

end Gridwalk
