import Gridwalk.Proofs.ImportGraph

/-!
# What strict loading adds

A strict load compares each codebox with the one that has its key in the registry at hand, and it
makes a registry of every import first. Together these comparisons find exactly the units in which
two codeboxes with one key come from different places, wherever in the imports they stand and in
whatever order imported codeboxes are registered: what is registered always has the places of what
has been met (`Consistent.append_foldl_iff`), and merging an import checks the import as a whole
(`Consistent.append_ofList_iff`). So `strict_load_iff`: a strict load is a lenient one with two
checks on the text.
-/

namespace Gridwalk

-- ---------------------------------------------------------------------------
-- Codeboxes without collisions
-- ---------------------------------------------------------------------------

/-- Any two of the codeboxes that have one key come from the same place. -/
def Consistent (boxes : List Codebox) : Prop :=
  ∀ a ∈ boxes, ∀ b ∈ boxes, a.key = b.key → a.origin = b.origin

/-- For each of `boxes` there is one in `others` with its key and from its place. -/
def Covers (others boxes : List Codebox) : Prop :=
  ∀ a ∈ boxes, ∃ b ∈ others, b.key = a.key ∧ b.origin = a.origin

section
variable {boxes others rest list : List Codebox} {reg : Registry} {box : Codebox}

theorem Covers.of_subset (h : boxes ⊆ others) : Covers others boxes :=
  fun a ha => ⟨a, h ha, rfl, rfl⟩

theorem Covers.refl (boxes : List Codebox) : Covers boxes boxes := .of_subset (List.Subset.refl _)

theorem Covers.append {boxes' others' : List Codebox} (h : Covers others boxes)
    (h' : Covers others' boxes') : Covers (others ++ others') (boxes ++ boxes') := by
  intro a ha
  rcases List.mem_append.1 ha with ha | ha
  · obtain ⟨b, hb, hs⟩ := h a ha
    exact ⟨b, List.mem_append_left _ hb, hs⟩
  · obtain ⟨b, hb, hs⟩ := h' a ha
    exact ⟨b, List.mem_append_right _ hb, hs⟩

theorem Consistent.of_covers (h : Consistent others) (hc : Covers others boxes) :
    Consistent boxes := by
  intro a ha b hb hk
  obtain ⟨a', ha', hka, hoa⟩ := hc a ha
  obtain ⟨b', hb', hkb, hob⟩ := hc b hb
  rw [← hoa, ← hob]
  exact h a' ha' b' hb' (hka.trans (hk.trans hkb.symm))

theorem Consistent.of_subset (h : Consistent others) (hs : boxes ⊆ others) : Consistent boxes :=
  h.of_covers (.of_subset hs)

theorem consistent_boxes (reg : Registry) : Consistent reg.boxes := by
  intro a ha b hb hk
  rw [Registry.mem_boxes_iff] at ha hb
  rw [hk, hb] at ha
  rw [Option.some.inj ha]

theorem consistent_concat_iff :
    Consistent (reg.boxes ++ [box]) ↔
      ∀ old, reg.get? box.key = some old → old.origin = box.origin := by
  constructor
  · intro hc old hold
    have hk := Registry.key_of_get? hold
    have hm : old ∈ reg.boxes := Registry.mem_boxes_iff.2 (hk ▸ hold)
    exact hc old (by simp [hm]) box (by simp) hk
  · intro hold a ha b hb hk
    rcases List.mem_append.1 ha with ha | ha <;> rcases List.mem_append.1 hb with hb | hb
    · exact consistent_boxes reg a ha b hb hk
    · rw [List.mem_singleton.1 hb] at hk ⊢
      exact hold a (hk ▸ Registry.mem_boxes_iff.1 ha)
    · rw [List.mem_singleton.1 ha] at hk ⊢
      exact (hold b (hk.symm ▸ Registry.mem_boxes_iff.1 hb)).symm
    · rw [List.mem_singleton.1 ha, List.mem_singleton.1 hb]

theorem Registry.foldl_insert_subset (boxes : List Codebox) (reg : Registry) :
    (boxes.foldl insert reg).boxes ⊆ reg.boxes ++ boxes := by
  induction boxes generalizing reg with
  | nil => simp
  | cons box boxes ih =>
    intro a ha
    rcases List.mem_append.1 (ih (reg.insert box) ha) with ha | ha
    · rcases mem_of_mem_place ha with rfl | ha <;> simp [*]
    · simp [ha]

theorem Registry.exists_mem_foldl_insert {a : Codebox} (ha : a ∈ reg.boxes ++ boxes) :
    ∃ b ∈ (boxes.foldl insert reg).boxes, b.key = a.key := by
  induction boxes generalizing reg a with
  | nil => exact ⟨a, by simpa using ha, rfl⟩
  | cons box boxes ih =>
    have hbox : box ∈ (reg.insert box).boxes := by simp [mem_boxes_iff, get?_insert]
    rcases List.mem_append.1 ha with ha | ha
    · by_cases hk : box.key = a.key
      · rw [← hk]
        exact ih (List.mem_append_left _ hbox)
      · refine ih (List.mem_append_left _ ?_)
        rw [mem_boxes_iff, get?_insert, if_neg hk, ← mem_boxes_iff]
        exact ha
    · rcases List.mem_cons.1 ha with rfl | ha
      · exact ih (List.mem_append_left _ hbox)
      · exact ih (List.mem_append_right _ ha)

/-- Without collisions, nothing that is replaced was from another place. -/
theorem Covers.foldl_insert (h : Consistent (reg.boxes ++ boxes)) :
    Covers (boxes.foldl .insert reg).boxes (reg.boxes ++ boxes) := by
  intro a ha
  obtain ⟨b, hb, hk⟩ := Registry.exists_mem_foldl_insert ha
  exact ⟨b, hb, hk, h b (Registry.foldl_insert_subset boxes reg hb) a ha hk⟩

theorem Consistent.append_foldl_iff :
    Consistent (reg.boxes ++ (boxes ++ rest)) ↔
      Consistent (reg.boxes ++ boxes) ∧ Consistent ((boxes.foldl .insert reg).boxes ++ rest) := by
  rw [← List.append_assoc]
  constructor
  · intro h
    exact ⟨h.of_subset (List.subset_append_left _ _),
      h.of_covers (.append (.of_subset (Registry.foldl_insert_subset boxes reg)) (.refl _))⟩
  · rintro ⟨hboxes, hrest⟩
    exact hrest.of_covers (.append (.foldl_insert hboxes) (.refl _))

theorem Consistent.append_cons_iff :
    Consistent (reg.boxes ++ box :: rest) ↔
      Consistent (reg.boxes ++ [box]) ∧ Consistent ((reg.insert box).boxes ++ rest) := by
  rw [← List.singleton_append, append_foldl_iff]
  rfl

/-- To merge the registry of an import is to merge the import, once the import is consistent. -/
theorem Consistent.append_ofList_iff (hp : list.Perm (Registry.ofList boxes).boxes) :
    Consistent (reg.boxes ++ boxes) ↔ Consistent boxes ∧ Consistent (reg.boxes ++ list) := by
  have hsub : list ⊆ boxes :=
    List.Subset.trans hp.subset (Registry.foldl_insert_subset boxes ∅)
  constructor
  · intro h
    exact ⟨h.of_subset (List.subset_append_right _ _),
      h.of_covers (.append (.refl _) (.of_subset hsub))⟩
  · rintro ⟨hboxes, hlist⟩
    have hempty : Consistent ((∅ : Registry).boxes ++ boxes) := hboxes
    have hcovers : Covers list boxes := by
      intro a ha
      obtain ⟨b, hb, hs⟩ := Covers.foldl_insert hempty a ha
      exact ⟨b, hp.symm.subset hb, hs⟩
    exact hlist.of_covers (.append (.refl _) hcovers)

end

def Plan.Blank (plan : Plan) : Prop := ∀ place, .ok (.stray place false) ∉ plan.trace

namespace Loader

-- ---------------------------------------------------------------------------
-- Strict registration
-- ---------------------------------------------------------------------------

section
variable {loader : Loader} {box : Codebox} {boxes : List Codebox} {reg reg' : Registry}
  {journal : Log.Journal}

theorem register_strict_ok_iff (h : loader.strict = true) :
    (loader.register box reg journal).1 = .ok reg' ↔
      Consistent (reg.boxes ++ [box]) ∧ reg' = reg.insert box := by
  rw [consistent_concat_iff]
  unfold register
  cases hg : reg.get? box.key with
  | none => simp [eq_comm]
  | some old =>
    by_cases ho : old.origin = box.origin
    · simp [ho, eq_comm]
    · simp [ho, h]

theorem registerAll_strict_ok_iff (h : loader.strict = true) :
    (loader.registerAll boxes reg journal).1 = .ok reg' ↔
      Consistent (reg.boxes ++ boxes) ∧ reg' = boxes.foldl .insert reg := by
  induction boxes generalizing reg journal with
  | nil => simp [registerAll, consistent_boxes, eq_comm]
  | cons box boxes ih =>
    have hone : ∀ next, (loader.register box reg journal).1 = .ok next ↔
        Consistent (reg.boxes ++ [box]) ∧ next = reg.insert box :=
      fun _ => register_strict_ok_iff h
    rw [Consistent.append_cons_iff, registerAll]
    rcases hr : loader.register box reg journal with ⟨result, journal'⟩
    simp only [hr] at hone
    cases result with
    | error error =>
      have hno : ¬ Consistent (reg.boxes ++ [box]) := by
        intro hc
        cases (hone _).2 ⟨hc, rfl⟩
      simp [hno]
    | ok next =>
      obtain ⟨hc, rfl⟩ := (hone next).1 rfl
      simp [hc, ih]

end

-- ---------------------------------------------------------------------------
-- Strict plans
-- ---------------------------------------------------------------------------

section
variable {loader : Loader} {plan : Plan} {boxes : List Codebox} {reg reg' : Registry}
  {sites : List Location} {journal : Log.Journal}

theorem flat_of_follow_strict (h : loader.strict = true)
    (hf : (loader.follow sites plan reg journal).1 = .ok reg') :
    ∃ boxes, plan.flat = .ok boxes ∧ plan.Blank ∧ Consistent (reg.boxes ++ boxes) ∧
      reg' = boxes.foldl .insert reg := by
  induction plan generalizing sites reg journal reg' with
  | done =>
    obtain rfl := Except.ok.inj hf
    exact ⟨[], rfl, fun _ => List.not_mem_nil, by simpa using consistent_boxes reg, rfl⟩
  | fault error => cases hf
  | box codebox next ih =>
    simp only [follow] at hf
    split at hf
    next => cases hf
    next hr =>
      obtain ⟨hone, rfl⟩ := (register_strict_ok_iff h).1 (congrArg Prod.fst hr)
      obtain ⟨rest, hflat, hblank, hrest, rfl⟩ := ih () hf
      refine ⟨codebox :: rest, by rw [Plan.flat, hflat]; rfl, ?_, ?_, rfl⟩
      · intro place hm
        exact hblank place (List.mem_of_ne_of_mem (by simp) hm)
      · exact Consistent.append_cons_iff.2 ⟨hone, hrest⟩
  | stray place blank next ih =>
    simp only [follow, h, Bool.true_and] at hf
    cases blank with
    | false => cases hf
    | true =>
      obtain ⟨rest, hflat, hblank, hrest, rfl⟩ := ih () hf
      refine ⟨rest, hflat, ?_, hrest, rfl⟩
      intro place hm
      exact hblank place (List.mem_of_ne_of_mem (by simp) hm)
  | imports place target body next ihb ihn =>
    simp only [follow] at hf
    split at hf
    next => cases hf
    next hb =>
      split at hf
      next => cases hf
      next hr =>
        obtain ⟨inner, hinner, hblank, hown, rfl⟩ := ihb () (congrArg Prod.fst hb)
        obtain ⟨hmerge, rfl⟩ := (registerAll_strict_ok_iff h).1 (congrArg Prod.fst hr)
        have hperm : (loader.order.list (place :: sites) (inner.foldl .insert ∅)).Perm
            (Registry.ofList inner).boxes := loader.order.perm _ _
        rw [Registry.foldl_insert_of_perm hperm] at hf
        obtain ⟨rest, hflat, hblank', hrest, rfl⟩ := ihn () hf
        refine ⟨inner ++ rest, ?_, ?_, ?_, by rw [List.foldl_append]⟩
        · rw [Plan.flat, hinner, Except.bind, hflat]
          rfl
        · intro place hm
          rcases List.mem_append.1 (List.mem_of_ne_of_mem (by simp) hm) with hm | hm
          · exact hblank place hm
          · exact hblank' place hm
        · exact Consistent.append_foldl_iff.2
            ⟨(Consistent.append_ofList_iff hperm).2 ⟨hown, hmerge⟩, hrest⟩

theorem follow_strict_of_flat (h : loader.strict = true) (hflat : plan.flat = .ok boxes)
    (hblank : plan.Blank) (hc : Consistent (reg.boxes ++ boxes)) :
    (loader.follow sites plan reg journal).1 = .ok (boxes.foldl .insert reg) := by
  induction plan generalizing sites reg journal boxes with
  | done =>
    obtain rfl := Except.ok.inj hflat
    rfl
  | fault error => cases hflat
  | box codebox next ih =>
    obtain ⟨rest, hrest, rfl⟩ := map_ok.1 hflat
    obtain ⟨hone, hc⟩ := Consistent.append_cons_iff.1 hc
    have hr : (loader.register codebox reg journal).1 = .ok (reg.insert codebox) :=
      (register_strict_ok_iff h).2 ⟨hone, rfl⟩
    rcases he : loader.register codebox reg journal with ⟨result, journal'⟩
    rw [he] at hr
    obtain rfl := hr
    simp only [follow, he]
    exact ih () hrest (fun place hm => hblank place (List.mem_cons_of_mem _ hm)) hc
  | stray place blank next ih =>
    cases blank with
    | false => exact absurd List.mem_cons_self (hblank place)
    | true =>
      simp only [follow, Bool.not_true, Bool.and_false, Bool.false_eq_true, ↓reduceIte]
      exact ih () hflat (fun place hm => hblank place (List.mem_cons_of_mem _ hm)) hc
  | imports place target body next ihb ihn =>
    obtain ⟨inner, hinner, hflat⟩ := bind_ok.1 hflat
    obtain ⟨rest, hrest, rfl⟩ := map_ok.1 hflat
    obtain ⟨hin, hc⟩ := Consistent.append_foldl_iff.1 hc
    have hperm : (loader.order.list (place :: sites) (inner.foldl .insert ∅)).Perm
        (Registry.ofList inner).boxes := loader.order.perm _ _
    obtain ⟨hown, hmerge⟩ := (Consistent.append_ofList_iff hperm).1 hin
    have hbody : ∀ journal, (loader.follow (place :: sites) (body ()) ∅ journal).1 =
        .ok (inner.foldl .insert ∅) := fun journal =>
      ihb () hinner (fun place hm => hblank place
        (List.mem_cons_of_mem _ (List.mem_append_left _ hm))) hown
    simp only [follow]
    split
    next hb => cases (congrArg Prod.fst hb).symm.trans (hbody _)
    next hb =>
      obtain rfl := Except.ok.inj ((congrArg Prod.fst hb).symm.trans (hbody _))
      have hall : ∀ journal,
          (loader.registerAll (loader.order.list (place :: sites) (inner.foldl .insert ∅)) reg
            journal).1 = .ok (inner.foldl .insert reg) := fun journal =>
        (registerAll_strict_ok_iff h).2 ⟨hmerge, (Registry.foldl_insert_of_perm hperm).symm⟩
      split
      next hr => cases (congrArg Prod.fst hr).symm.trans (hall _)
      next hr =>
        obtain rfl := Except.ok.inj ((congrArg Prod.fst hr).symm.trans (hall _))
        rw [List.foldl_append]
        exact ihn () hrest (fun place hm => hblank place
          (List.mem_cons_of_mem _ (List.mem_append_right _ hm))) hc

theorem load_strict_ok_iff {source : Source} {unit : String} (h : loader.strict = true) :
    (loader.load source unit journal).1 = .ok reg ↔
      ∃ boxes, (source.plan unit).flat = .ok boxes ∧ (source.plan unit).Blank ∧
        Consistent boxes ∧ reg = .ofList boxes := by
  obtain ⟨journal', hl⟩ := load_fst loader source unit journal
  rw [hl]
  constructor
  · exact flat_of_follow_strict h
  · rintro ⟨boxes, hflat, hblank, hc, rfl⟩
    exact follow_strict_of_flat h hflat hblank hc

/-- Where strict loading has nothing to object to, loading is the same in both modes. -/
theorem load_of_flat {source : Source} {unit : String}
    (hflat : (source.plan unit).flat = .ok boxes) (hblank : (source.plan unit).Blank)
    (hc : Consistent boxes) (journal : Log.Journal) :
    (loader.load source unit journal).1 = .ok (.ofList boxes) := by
  cases hs : loader.strict with
  | false =>
    rw [load_lenient hs, hflat]
    rfl
  | true => exact (load_strict_ok_iff hs).2 ⟨boxes, hflat, hblank, hc, rfl⟩

end

end Loader

-- ---------------------------------------------------------------------------
-- Strict units
-- ---------------------------------------------------------------------------

namespace Source

/-- The unit has this line outside codeboxes. It is neither a border nor an import, and no line
before it breaks a rule of the format. -/
def Stray (source : Source) (unit : String) (line : List Char) : Prop :=
  ∃ text before rest, source.read unit = .ok text ∧
    Text.lines text = Part.allLines before ++ line :: rest ∧ Line.IsFiller line

theorem flat_unique {source : Source} {unit : String} {boxes others : List Codebox}
    (h : ∃ enough, ∀ depth ≥ enough, source.flat depth unit = some boxes)
    (h' : ∃ enough, ∀ depth ≥ enough, source.flat depth unit = some others) : boxes = others := by
  obtain ⟨enough, hboxes⟩ := h
  obtain ⟨enough', hothers⟩ := h'
  have hsame := (hboxes (enough + enough') (by omega)).symm.trans (hothers _ (by omega))
  exact Option.some.inj hsame

theorem blank_plan_iff {source : Source} {root : String} (hclear : source.Clear root) :
    (source.plan root).Blank ↔
      ∀ unit, source.Reaches root unit → ∀ line, source.Stray unit line →
        line.all Text.isBlank = true := by
  constructor
  · rintro hblank unit hr line ⟨text, before, rest, htext, hlines, hplain⟩
    obtain ⟨reading, ho⟩ := hclear.exists_opens hr
    obtain ⟨outline, he, -⟩ := hclear.enter ho
    obtain ⟨-, other, hother, rfl⟩ := enter_eq_ok_iff.1 he
    obtain rfl := Except.ok.inj (htext.symm.trans hother)
    cases hall : line.all Text.isBlank with
    | true => rfl
    | false =>
      obtain ⟨place, hm⟩ := Outline.exists_stray_ofText_iff.2
        ⟨before, line, rest, hlines, hplain, hall⟩
      exact absurd (mem_trace_plan_iff.2 ⟨_, _, ho, .item he hm⟩) (hblank place)
  · intro hlines place hm
    obtain ⟨reading, unit, ho, hs⟩ := mem_trace_plan_iff.1 hm
    cases hs with
    | item entered shown =>
      obtain ⟨-, text, htext, rfl⟩ := enter_eq_ok_iff.1 entered
      obtain ⟨before, line, rest, hline, hplain, hall⟩ :=
        Outline.exists_stray_ofText_iff.1 ⟨place, shown⟩
      have hblank := hlines unit ho.reaches line ⟨text, before, rest, htext, hline, hplain⟩
      exact nomatch hall.symm.trans hblank

end Source

/-- A strict load succeeds if and only if the lenient load does, the text outside codeboxes is blank
in every unit in reach, and with all imports inlined any two codeboxes that have one key come from
the same place. It then gives the same registry. Where the lenient load fails, so does the strict
one; where only the strict one fails, it reports stray text or a duplicate command. None of this
depends on the order of imported codeboxes. -/
theorem Loader.strict_load_iff (source : Source) (unit : String) (order order' : Enumeration)
    (journal journal' : Log.Journal) :
    ((∃ reg, (load ⟨true, order⟩ source unit journal).1 = .ok reg) ↔
      (∃ reg, (load ⟨false, order'⟩ source unit journal').1 = .ok reg) ∧
      (∀ other, source.Reaches unit other → ∀ line, source.Stray other line →
        line.all Text.isBlank = true) ∧
      ∃ boxes, (∃ enough, ∀ depth ≥ enough, source.flat depth unit = some boxes) ∧
        ∀ a ∈ boxes, ∀ b ∈ boxes, a.key = b.key → a.origin = b.origin) ∧
    (∀ reg, (load ⟨true, order⟩ source unit journal).1 = .ok reg →
      (load ⟨false, order'⟩ source unit journal').1 = .ok reg) ∧
    (∀ error, (load ⟨false, order'⟩ source unit journal').1 = .error error →
      ∃ error', (load ⟨true, order⟩ source unit journal).1 = .error error') ∧
    ∀ reg error, (load ⟨false, order'⟩ source unit journal').1 = .ok reg →
      (load ⟨true, order⟩ source unit journal).1 = .error error →
      (∃ place, error = .strayText place) ∨ ∃ key place, error = .duplicateCommand key place := by
  have hsame : ∀ reg, (load ⟨true, order⟩ source unit journal).1 = .ok reg →
      (load ⟨false, order'⟩ source unit journal').1 = .ok reg := by
    intro reg hs
    obtain ⟨boxes, hflat, -, -, rfl⟩ := (load_strict_ok_iff rfl).1 hs
    rw [load_lenient rfl, hflat]
    rfl
  refine ⟨⟨?_, ?_⟩, hsame, ?_, ?_⟩
  · rintro ⟨reg, hs⟩
    have hl := hsame reg hs
    obtain ⟨boxes, hflat, hblank, hc, -⟩ := (load_strict_ok_iff rfl).1 hs
    have hclear := (lenient_load_iff_clear rfl).1 ⟨reg, hl⟩
    exact ⟨⟨reg, hl⟩, (Source.blank_plan_iff hclear).1 hblank, boxes,
      Source.flat_of_plan hflat, hc⟩
  · rintro ⟨⟨reg, hl⟩, hlines, boxes, hboxes, hc⟩
    have hclear := (lenient_load_iff_clear rfl).1 ⟨reg, hl⟩
    rw [load_lenient rfl] at hl
    obtain ⟨others, hflat, -⟩ := map_ok.1 hl
    obtain rfl := Source.flat_unique hboxes (Source.flat_of_plan hflat)
    exact ⟨_, (load_strict_ok_iff rfl).2
      ⟨boxes, hflat, (Source.blank_plan_iff hclear).2 hlines, hc, rfl⟩⟩
  · intro error hl
    cases hs : (load ⟨true, order⟩ source unit journal).1 with
    | error error' => exact ⟨error', rfl⟩
    | ok reg => exact nomatch hl.symm.trans (hsame reg hs)
  · intro reg error hl hs
    obtain ⟨journal'', hfollow⟩ := load_fst ⟨true, order⟩ source unit journal
    refine (follow_error (hfollow.symm.trans hs)).resolve_left ?_
    rw [load_lenient rfl] at hl
    obtain ⟨boxes, hflat, -⟩ := map_ok.1 hl
    exact Plan.not_mem_trace_of_flat hflat error

def Source.rivals : Source := .ofUnits
  [("a", "###\n#f#\n#v#\n###\n"), ("m", "\x7ba\x7d\n###\n#f#\n#v#\n###\n")]

def Source.rivalBoxes : List Codebox :=
  [⟨"f", 1, 0, [], ⟨"a", 1⟩⟩, ⟨"f", 1, 0, [], ⟨"m", 2⟩⟩]

theorem Loader.strict_load_rivals :
    (Loader.lenient.load Source.rivals "m" (.start .warn)).1 = .ok (.ofList Source.rivalBoxes) ∧
    ∀ (order : Enumeration) (journal : Log.Journal), ∃ error,
      (Loader.load ⟨true, order⟩ Source.rivals "m" journal).1 = .error error ∧
      ((∃ place, error = .strayText place) ∨ ∃ key place, error = .duplicateCommand key place) := by
  obtain ⟨_, hm⟩ := Source.exists_planWithin_eq (show Source.rivals.enter [] "m" = .ok
    ⟨[.imports ⟨"m", 1⟩ "a", .box ⟨"f", 1, 0, [], ⟨"m", 2⟩⟩], none⟩ by rfl)
  obtain ⟨_, ha⟩ := Source.exists_planWithin_eq (show Source.rivals.enter ["m"] "a" = .ok
    ⟨[.box ⟨"f", 1, 0, [], ⟨"a", 1⟩⟩], none⟩ by rfl)
  have hp : (Source.rivals.plan "m").flat = .ok Source.rivalBoxes := by
    simp only [Source.plan, hm, ha, Source.expand_imports, Source.expand_box, Source.expand_nil,
      Plan.flat, List.nil_append]
    rfl
  have hl : (Loader.lenient.load Source.rivals "m" (.start .warn)).1 =
      .ok (.ofList Source.rivalBoxes) := by
    rw [load_lenient rfl, hp]
    rfl
  refine ⟨hl, ?_⟩
  intro order journal
  obtain ⟨hiff, -, -, hkind⟩ :=
    strict_load_iff Source.rivals "m" order .byKey journal (.start .warn)
  cases hs : (Loader.load ⟨true, order⟩ Source.rivals "m" journal).1 with
  | error error => exact ⟨error, rfl, hkind _ error hl hs⟩
  | ok reg =>
    obtain ⟨-, -, boxes, hboxes, hc⟩ := hiff.1 ⟨reg, hs⟩
    obtain rfl := Source.flat_unique hboxes (Source.flat_of_plan hp)
    have horigin := hc _ List.mem_cons_self _ (List.mem_cons_of_mem _ List.mem_cons_self) rfl
    exact absurd horigin (by decide)

end Gridwalk
