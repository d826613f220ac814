import Gridwalk.Registry

/-!
# Registries as last-wins maps

Inserting codeboxes one after the other leaves, under every key, the last one that has it
(`get?_foldl_insert`). A registry's own codeboxes have distinct keys, so inserting them again gives
the same in any order (`foldl_insert_of_perm`): to insert what a list of codeboxes amounts to is to
insert the list.

Codeboxes with the same code may come from different places. `SameUnder` compares registries up to
where their codeboxes come from.
-/

namespace Gridwalk.Registry

def lastWith (key : Key) (boxes : List Codebox) : Option Codebox :=
  (boxes.filter (·.key = key)).getLast?

section
variable {key : Key} {box : Codebox} {boxes list : List Codebox} {reg : Registry}

theorem lastWith_cons :
    lastWith key (box :: boxes) =
      (lastWith key boxes).or (if box.key = key then some box else none) := by
  unfold lastWith
  by_cases h : box.key = key
  · simp only [h, decide_true, List.filter_cons_of_pos, List.getLast?_cons, ↓reduceIte]
    cases (boxes.filter (·.key = key)).getLast? <;> rfl
  · simp [h]

theorem lastWith_concat :
    lastWith key (boxes ++ [box]) = if box.key = key then some box else lastWith key boxes := by
  by_cases h : box.key = key <;> simp [lastWith, List.filter_append, h]

theorem lastWith_eq_none_iff : lastWith key boxes = none ↔ ∀ box ∈ boxes, box.key ≠ key := by
  simp [lastWith]

theorem get?_foldl_insert (boxes : List Codebox) (reg : Registry) (key : Key) :
    (boxes.foldl insert reg).get? key = (lastWith key boxes).or (reg.get? key) := by
  induction boxes generalizing reg with
  | nil => rfl
  | cons box boxes ih =>
    rw [List.foldl_cons, ih, get?_insert, lastWith_cons, Option.or_assoc]
    congr 1
    split <;> rfl

theorem get?_ofList (boxes : List Codebox) (key : Key) :
    (ofList boxes).get? key = lastWith key boxes := by
  rw [ofList, get?_foldl_insert]
  exact Option.or_none

theorem get?_ofList_of_mem (h : (boxes.map Codebox.key).Nodup) (hm : box ∈ boxes) :
    (ofList boxes).get? box.key = some box := by
  rw [get?_ofList]
  induction boxes with
  | nil => nomatch hm
  | cons first rest ih =>
    obtain ⟨hfirst, hrest⟩ := List.nodup_cons.1 h
    rw [lastWith_cons]
    rcases List.mem_cons.1 hm with rfl | hm
    · have hnone : lastWith box.key rest = none :=
        lastWith_eq_none_iff.2 fun other ho hk => hfirst (hk ▸ List.mem_map_of_mem ho)
      simp [hnone]
    · rw [ih hrest hm]
      rfl

theorem filter_boxes (reg : Registry) (key : Key) :
    reg.boxes.filter (·.key = key) = (reg.get? key).toList := by
  obtain ⟨boxes, sorted⟩ := reg
  unfold get?
  induction boxes with
  | nil => rfl
  | cons box boxes ih =>
    obtain ⟨hbox, hboxes⟩ := List.pairwise_cons.1 sorted
    by_cases h : box.key = key
    · have hnone : boxes.filter (·.key = key) = [] := by
        refine List.filter_eq_nil_iff.2 ?_
        intro other hm
        simpa [← h] using (Key.ne_of_lt (hbox other hm)).symm
      simp [h, hnone]
    · simpa [h] using ih hboxes

theorem lastWith_of_perm (h : list.Perm reg.boxes) : lastWith key list = reg.get? key := by
  have hp := h.filter (·.key = key)
  rw [filter_boxes] at hp
  unfold lastWith
  cases hg : reg.get? key with
  | none => simp [(hg ▸ hp : List.Perm _ []).eq_nil]
  | some box => simp [(hg ▸ hp : List.Perm _ [box]).eq_singleton]

theorem ofList_of_perm (h : list.Perm reg.boxes) : ofList list = reg := by
  apply ext_get?
  intro key
  rw [get?_ofList, lastWith_of_perm h]

/-- The codeboxes of a registry may be inserted in any order, or as the list that they come from. -/
theorem foldl_insert_of_perm (h : list.Perm (ofList boxes).boxes) :
    list.foldl insert reg = boxes.foldl insert reg := by
  apply ext_get?
  intro key
  rw [get?_foldl_insert, get?_foldl_insert, lastWith_of_perm h, get?_ofList]

end

end Gridwalk.Registry

namespace Gridwalk

-- ---------------------------------------------------------------------------
-- The same code from elsewhere
-- ---------------------------------------------------------------------------

structure Codebox.SameCode (box other : Codebox) : Prop where
  name : box.name = other.name
  width : box.width = other.width
  entry : box.entry = other.entry
  rows : box.rows = other.rows

def Registry.SameUnder (reg other : Registry) (key : Key) : Prop :=
  Option.Rel Codebox.SameCode (reg.get? key) (other.get? key)

section
variable {reg other : Registry} {key : Key} {box copy : Codebox}

theorem Codebox.SameCode.exists_eq (h : box.SameCode copy) :
    ∃ origin, copy = { box with origin } := by
  obtain ⟨name, width, entry, rows, origin⟩ := copy
  obtain ⟨rfl, rfl, rfl, rfl⟩ := h
  exact ⟨origin, rfl⟩

theorem Registry.SameUnder.of_some (h : reg.SameUnder other key) (hb : reg.get? key = some box) :
    ∃ copy, other.get? key = some copy ∧ box.SameCode copy := by
  unfold Registry.SameUnder at h
  rw [hb] at h
  cases hc : other.get? key with
  | none =>
    rw [hc] at h
    cases h
  | some copy =>
    rw [hc] at h
    cases h with
    | some code => exact ⟨copy, rfl, code⟩

theorem Registry.SameUnder.of_none (h : reg.SameUnder other key) (hb : reg.get? key = none) :
    other.get? key = none := by
  unfold Registry.SameUnder at h
  rw [hb] at h
  cases hc : other.get? key with
  | none => rfl
  | some copy =>
    rw [hc] at h
    cases h

end

end Gridwalk
