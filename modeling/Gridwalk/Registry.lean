import Gridwalk.Codebox

/-!
# Registries

A registry holds at most one codebox for each key. Its codeboxes are kept in the order of their
keys, so a registry is determined by what `get?` finds in it, and `keys` needs no sorting.

`get?_insert` says what insertion does: the new codebox is found under its own key, and nothing
changes under any other. `exchange_fst` says that the codebox it replaces is the one that was found
there. `ext_get?` says that registries in which the same is found are equal.
-/

namespace Gridwalk

structure Registry where
  boxes : List Codebox
  sorted : boxes.Pairwise (fun a b => a.key < b.key)

namespace Registry

def empty : Registry := ⟨[], .nil⟩

instance : EmptyCollection Registry := ⟨empty⟩

instance : Inhabited Registry := ⟨empty⟩

/-- Puts a codebox where its key belongs, in place of one that has the same key. -/
def place (box : Codebox) : List Codebox → List Codebox
  | [] => [box]
  | other :: rest =>
    if box.key < other.key then box :: other :: rest
    else if box.key = other.key then box :: rest
    else other :: place box rest

theorem mem_of_mem_place {box b : Codebox} {boxes : List Codebox} (h : b ∈ place box boxes) :
    b = box ∨ b ∈ boxes := by
  induction boxes with
  | nil => simpa [place] using h
  | cons other rest ih =>
    unfold place at h
    split at h
    · simpa using h
    · split at h
      · rcases List.mem_cons.1 h with h | h <;> simp [h]
      · rcases List.mem_cons.1 h with h | h
        · simp [h]
        · rcases ih h with h | h <;> simp [h]

theorem sorted_place (box : Codebox) {boxes : List Codebox}
    (h : boxes.Pairwise (fun a b => a.key < b.key)) :
    (place box boxes).Pairwise (fun a b => a.key < b.key) := by
  induction boxes with
  | nil => simp [place]
  | cons other rest ih =>
    obtain ⟨hother, hrest⟩ := List.pairwise_cons.1 h
    unfold place
    split
    next hlt =>
      refine List.pairwise_cons.2 ⟨fun b hb => ?_, h⟩
      rcases List.mem_cons.1 hb with rfl | hb
      · exact hlt
      · exact Key.lt_trans hlt (hother b hb)
    next hlt =>
      split
      next he => exact List.pairwise_cons.2 ⟨fun b hb => he ▸ hother b hb, hrest⟩
      next hne =>
        refine List.pairwise_cons.2 ⟨fun b hb => ?_, ih hrest⟩
        rcases mem_of_mem_place hb with rfl | hb
        · exact Key.lt_of_not_lt_of_ne hlt hne
        · exact hother b hb

def insert (reg : Registry) (box : Codebox) : Registry :=
  ⟨place box reg.boxes, sorted_place box reg.sorted⟩

def get? (reg : Registry) (key : Key) : Option Codebox := reg.boxes.find? (·.key = key)

def contains (reg : Registry) (key : Key) : Bool := (reg.get? key).isSome

def size (reg : Registry) : Nat := reg.boxes.length

def isEmpty (reg : Registry) : Bool := reg.boxes.isEmpty

def keys (reg : Registry) : List Key := reg.boxes.map (·.key)

/-- Of codeboxes with the same key the last one stays. -/
def ofList (boxes : List Codebox) : Registry := boxes.foldl insert empty

def replaced? (box : Codebox) : List Codebox → Option Codebox
  | [] => none
  | other :: rest =>
    if box.key < other.key then none
    else if box.key = other.key then some other
    else replaced? box rest

/-- Inserts a codebox and gives back the one that it replaces. -/
def exchange (reg : Registry) (box : Codebox) : Option Codebox × Registry :=
  (replaced? box reg.boxes, reg.insert box)

theorem find?_place (box : Codebox) (key : Key) {boxes : List Codebox}
    (h : boxes.Pairwise (fun a b => a.key < b.key)) :
    (place box boxes).find? (·.key = key) =
      if box.key = key then some box else boxes.find? (·.key = key) := by
  induction boxes with
  | nil => by_cases hk : box.key = key <;> simp [place, hk]
  | cons other rest ih =>
    obtain ⟨hother, hrest⟩ := List.pairwise_cons.1 h
    unfold place
    split
    next => by_cases hk : box.key = key <;> simp [hk]
    next =>
      split
      next he => by_cases hk : box.key = key <;> simp [hk, ← he]
      next hne =>
        by_cases hk : other.key = key
        · have : box.key ≠ key := fun he => hne (he.trans hk.symm)
          simp [hk, this]
        · simp [hk, ih hrest]

theorem get?_insert (reg : Registry) (box : Codebox) (key : Key) :
    (reg.insert box).get? key = if box.key = key then some box else reg.get? key :=
  find?_place box key reg.sorted

theorem key_of_get? {reg : Registry} {key : Key} {box : Codebox} (h : reg.get? key = some box) :
    box.key = key := by
  simpa using List.find?_some h

theorem mem_boxes_iff {reg : Registry} {box : Codebox} :
    box ∈ reg.boxes ↔ reg.get? box.key = some box := by
  constructor
  · intro h
    unfold get?
    obtain ⟨boxes, sorted⟩ := reg
    induction boxes with
    | nil => simp at h
    | cons other rest ih =>
      obtain ⟨hother, hrest⟩ := List.pairwise_cons.1 sorted
      rcases List.mem_cons.1 h with rfl | hm
      · simp
      · have hne := Key.ne_of_lt (hother box hm)
        simpa [hne] using ih hrest hm
  · exact List.mem_of_find?_eq_some

theorem nodup_of_sorted {boxes : List Codebox} (h : boxes.Pairwise (fun a b => a.key < b.key)) :
    boxes.Nodup :=
  h.imp fun hlt he => Key.ne_of_lt hlt (congrArg Codebox.key he)

theorem replaced?_eq_find? (box : Codebox) {boxes : List Codebox}
    (h : boxes.Pairwise (fun a b => a.key < b.key)) :
    replaced? box boxes = boxes.find? (·.key = box.key) := by
  induction boxes with
  | nil => rfl
  | cons other rest ih =>
    obtain ⟨hother, hrest⟩ := List.pairwise_cons.1 h
    unfold replaced?
    split
    next hlt =>
      symm
      refine List.find?_eq_none.2 fun b hb => ?_
      rcases List.mem_cons.1 hb with rfl | hb
      · simpa using (Key.ne_of_lt hlt).symm
      · simpa using (Key.ne_of_lt (Key.lt_trans hlt (hother b hb))).symm
    next =>
      split
      next he => simp [he]
      next hne => simp [Ne.symm hne, ih hrest]

theorem exchange_fst (reg : Registry) (box : Codebox) :
    (reg.exchange box).1 = reg.get? box.key :=
  replaced?_eq_find? box reg.sorted

theorem mem_keys_iff {reg : Registry} {key : Key} :
    key ∈ reg.keys ↔ ∃ box, reg.get? key = some box := by
  rw [keys, List.mem_map]
  constructor
  · rintro ⟨box, hbox, rfl⟩
    exact ⟨box, mem_boxes_iff.1 hbox⟩
  · rintro ⟨box, hbox⟩
    obtain rfl := key_of_get? hbox
    exact ⟨box, mem_boxes_iff.2 hbox, rfl⟩

theorem sorted_keys (reg : Registry) : reg.keys.Pairwise (· < ·) :=
  List.pairwise_map.2 reg.sorted

theorem nodup_keys (reg : Registry) : reg.keys.Nodup :=
  reg.sorted_keys.imp Key.ne_of_lt

theorem ext_get? {reg other : Registry} (h : ∀ key, reg.get? key = other.get? key) :
    reg = other := by
  obtain ⟨boxes, sorted⟩ := reg
  obtain ⟨boxes', sorted'⟩ := other
  congr
  apply List.Perm.eq_of_pairwise _ sorted sorted'
  · have hmem := List.perm_ext_iff_of_nodup (nodup_of_sorted sorted) (nodup_of_sorted sorted')
    refine hmem.2 fun box => ?_
    rw [@mem_boxes_iff ⟨boxes, sorted⟩, @mem_boxes_iff ⟨boxes', sorted'⟩, h]
  · intro a b _ _ hab hba
    exact absurd (Key.lt_trans hab hba) fun h => Key.ne_of_lt h rfl

end Registry

end Gridwalk
