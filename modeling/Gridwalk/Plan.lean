import Gridwalk.Source

/-!
# Plans

The plan of a unit is everything that loading it meets, in order: the items of the unit's outline,
each import with the plan of what it names, and the fault that ends a text. What follows a step is
worked out when the load gets there, so a load that stops early has opened no unit beyond.

Plans depend on the texts alone. What loading makes of them, leniently or strictly, is structural
recursion on the plan.
-/

namespace Gridwalk

/-- Steps of a load with explicit tails. -/
inductive Plan
  | done
  /-- A broken rule of the format, a unit that cannot be read or one that is being read already. -/
  | fault (error : LoadError)
  | box (box : Codebox) (next : Unit → Plan)
  | stray (place : Location) (blank : Bool) (next : Unit → Plan)
  /-- An import line with the plan of the unit that it names. -/
  | imports (place : Location) (target : String) (body next : Unit → Plan)

namespace Source

/-- The units from the first occurrence of `unit` among those being read back to `unit`. -/
def cycle (reading : List String) (unit : String) : List String :=
  reading.dropWhile (· ≠ unit) ++ [unit]

/-- Opens a unit while those of `reading`, outermost first, are being read. -/
def enter (source : Source) (reading : List String) (unit : String) : Except LoadError Outline :=
  if unit ∈ reading then .error (.importCycle (cycle reading unit))
  else
    match source.read unit with
    | .error reason => .error (.unreadable (source.fileName unit) reason)
    | .ok text => .ok (Outline.ofText unit text)

theorem not_mem_of_enter {source : Source} {reading : List String} {unit : String}
    {outline : Outline} (h : source.enter reading unit = .ok outline) : unit ∉ reading := by
  intro hm
  simp [enter, hm] at h

theorem mem_names_of_enter {source : Source} {reading : List String} {unit : String}
    {outline : Outline} (h : source.enter reading unit = .ok outline) :
    ∀ target ∈ outline.targets, target ∈ source.names := by
  intro target ht
  unfold enter at h
  split at h
  next => nomatch h
  next =>
    split at h
    next => nomatch h
    next text hread =>
      obtain rfl := Except.ok.inj h
      exact mem_names hread ht

/-- How many names may still be imported without closing a cycle. -/
def unread (source : Source) (reading : List String) : Nat :=
  source.names.countP (· ∉ reading)

theorem countP_append_lt {names reading : List String} {unit : String}
    (hm : unit ∈ names) (hn : unit ∉ reading) :
    names.countP (· ∉ reading ++ [unit]) < names.countP (· ∉ reading) := by
  induction names with
  | nil => simp at hm
  | cons name names ih =>
    have hle : names.countP (· ∉ reading ++ [unit]) ≤ names.countP (· ∉ reading) :=
      List.countP_mono_left fun x _ hx => by simp_all
    by_cases he : name = unit
    · subst he
      simpa [List.countP_cons, hn] using Nat.lt_succ_of_le hle
    · have hlt := ih (by grind)
      by_cases hr : name ∈ reading <;> simp_all

theorem unread_append_lt {source : Source} {reading : List String} {unit : String}
    (hm : unit ∈ source.names) (hn : unit ∉ reading) :
    source.unread (reading ++ [unit]) < source.unread reading :=
  countP_append_lt hm hn

theorem mem_names_tail {names : List String} {item : Item} {rest : List Item}
    (h : ∀ target ∈ (item :: rest).filterMap Item.target?, target ∈ names) :
    ∀ target ∈ rest.filterMap Item.target?, target ∈ names := by
  intro target ht
  obtain ⟨other, hother, he⟩ := List.mem_filterMap.1 ht
  exact h target (List.mem_filterMap.2 ⟨other, List.mem_cons_of_mem _ hother, he⟩)

theorem mem_names_head {names : List String} {place : Location} {target : String}
    {rest : List Item}
    (h : ∀ t ∈ (Item.imports place target :: rest).filterMap Item.target?, t ∈ names) :
    target ∈ names :=
  h target (List.mem_filterMap.2 ⟨_, List.mem_cons_self, rfl⟩)

/-- The plan of the outline `⟨items, fault⟩` of the last of the units being read. -/
def expand (source : Source) (reading : List String) (items : List Item) (fault : Option LoadError)
    (h : ∀ target ∈ items.filterMap Item.target?, target ∈ source.names) : Plan :=
  match items with
  | [] => fault.elim .done .fault
  | .box box :: rest => .box box fun _ => source.expand reading rest fault (mem_names_tail h)
  | .stray place blank :: rest =>
    .stray place blank fun _ => source.expand reading rest fault (mem_names_tail h)
  | .imports place target :: rest =>
    .imports place target
      (fun _ =>
        match he : source.enter reading target with
        | .error error => .fault error
        | .ok outline =>
          source.expand (reading ++ [target]) outline.items outline.fault (mem_names_of_enter he))
      (fun _ => source.expand reading rest fault (mem_names_tail h))
termination_by (source.unread reading, items.length)
decreasing_by
  · exact Prod.Lex.right _ (Nat.lt_succ_self _)
  · exact Prod.Lex.right _ (Nat.lt_succ_self _)
  · exact Prod.Lex.left _ _ (unread_append_lt (mem_names_head h) (not_mem_of_enter he))
  · exact Prod.Lex.right _ (Nat.lt_succ_self _)

def planWithin (source : Source) (reading : List String) (unit : String) : Plan :=
  match h : source.enter reading unit with
  | .error error => .fault error
  | .ok outline =>
    source.expand (reading ++ [unit]) outline.items outline.fault (mem_names_of_enter h)

def plan (source : Source) (unit : String) : Plan := source.planWithin [] unit

section

variable {source : Source} {reading : List String} {fault : Option LoadError}

@[simp] theorem expand_nil {h} : source.expand reading [] fault h = fault.elim .done .fault := by
  rw [expand]

@[simp] theorem expand_box {box : Codebox} {rest : List Item} {h} :
    source.expand reading (.box box :: rest) fault h =
      .box box fun _ => source.expand reading rest fault (mem_names_tail h) := by
  rw [expand]

@[simp] theorem expand_stray {place : Location} {blank : Bool} {rest : List Item} {h} :
    source.expand reading (.stray place blank :: rest) fault h =
      .stray place blank fun _ => source.expand reading rest fault (mem_names_tail h) := by
  rw [expand]

@[simp] theorem expand_imports {place : Location} {target : String} {rest : List Item} {h} :
    source.expand reading (.imports place target :: rest) fault h =
      .imports place target (fun _ => source.planWithin reading target)
        (fun _ => source.expand reading rest fault (mem_names_tail h)) := by
  rw [expand]
  rfl

theorem planWithin_of_error {unit : String} {error : LoadError}
    (he : source.enter reading unit = .error error) :
    source.planWithin reading unit = .fault error := by
  unfold planWithin
  split <;> simp_all

theorem planWithin_of_ok {unit : String} {outline : Outline}
    (he : source.enter reading unit = .ok outline) :
    source.planWithin reading unit =
      source.expand (reading ++ [unit]) outline.items outline.fault (mem_names_of_enter he) := by
  unfold planWithin
  split
  next error hf => exact nomatch he.symm.trans hf
  next found hf =>
    obtain rfl := Except.ok.inj (he.symm.trans hf)
    rfl

end

end Source

end Gridwalk
