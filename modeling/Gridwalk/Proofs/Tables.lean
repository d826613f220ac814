import Mathlib.Data.Finmap
import Gridwalk.Proofs.RegistryLaws

/-!
# Registries in tables

A table has codeboxes under keys, in no order. Nothing in it says that a codebox stands under the
key of its own name, or that it was the last one to be put there. A registry can be kept in a table
nevertheless: `Table.Keeps` follows insertions, rebuilds, in which the codeboxes are visited in any
order, and collections.

Of all codeboxes that were inserted the last one with a key is found under it, be it in the table
(`Keeps.lookup_eq`) or in the ordered registry (`get?_afterAll`). So the order in which a table is
visited never shows (`tables_keep_registries`).
-/

namespace Gridwalk

-- ---------------------------------------------------------------------------
-- Operations
-- ---------------------------------------------------------------------------

namespace Registry

inductive Change
  | insert (box : Codebox)
  /-- All codeboxes are taken out and collected again. -/
  | rebuild
  | collect (boxes : List Codebox)
  deriving DecidableEq, Repr

def after (reg : Registry) : Change → Registry
  | .insert box => (reg.exchange box).2
  | .rebuild => ofList reg.boxes
  | .collect boxes => ofList boxes

def afterAll (changes : List Change) : Registry := changes.foldl after ∅

/-- The codeboxes inserted since the last collection began, of which there were `boxes` before the
change. -/
def Change.inserted (boxes : List Codebox) : Change → List Codebox
  | .insert box => boxes ++ [box]
  | .rebuild => boxes
  | .collect boxes => boxes

def inserted (changes : List Change) : List Codebox := changes.foldl Change.inserted []

section
variable {key : Key} {box : Codebox} {boxes : List Codebox} {reg : Registry}

theorem get?_after (h : ∀ key, reg.get? key = lastWith key boxes) (change : Change) (key : Key) :
    (reg.after change).get? key = lastWith key (change.inserted boxes) := by
  cases change with
  | insert box => rw [after, exchange, Change.inserted, get?_insert, lastWith_concat, h]
  | rebuild => rw [after, ofList_of_perm (.refl _), h, Change.inserted]
  | collect boxes => exact get?_ofList boxes key

theorem get?_foldl_after (h : ∀ key, reg.get? key = lastWith key boxes) (changes : List Change)
    (key : Key) :
    (changes.foldl after reg).get? key = lastWith key (changes.foldl Change.inserted boxes) := by
  induction changes generalizing reg boxes with
  | nil => exact h key
  | cons change changes ih => exact ih (get?_after h change)

theorem get?_afterAll (changes : List Change) (key : Key) :
    (afterAll changes).get? key = lastWith key (inserted changes) :=
  get?_foldl_after (fun _ => rfl) changes key

end

end Registry

-- ---------------------------------------------------------------------------
-- Tables
-- ---------------------------------------------------------------------------

/-- Codeboxes under keys, in no order. -/
abbrev Table := Finmap fun _ : Key => Codebox

namespace Table

open Registry (Change lastWith)

def store (table : Table) (box : Codebox) : Table := table.insert box.key box

def collect (boxes : List Codebox) : Table := boxes.foldl store ∅

/-- A list of the codeboxes of a table, in some order. -/
def Visits (list : List Codebox) (table : Table) : Prop :=
  (list : Multiset Codebox) = table.entries.map (·.2)

inductive Becomes (table : Table) : Change → Table → Prop
  | insert (box : Codebox) : Becomes table (.insert box) (table.store box)
  | rebuild (list : List Codebox) (h : Visits list table) : Becomes table .rebuild (collect list)
  | collect (boxes : List Codebox) : Becomes table (.collect boxes) (collect boxes)

/-- What an empty table can have become by changes in turn. -/
inductive Keeps : List Change → Table → Prop
  | start : Keeps [] ∅
  | step {changes : List Change} {change : Change} {table next : Table}
    (before : Keeps changes table) (last : table.Becomes change next) :
    Keeps (changes ++ [change]) next

def Owned (table : Table) : Prop := ∀ entry ∈ table.entries, entry.2.key = entry.1

section
variable {key : Key} {box : Codebox} {boxes list : List Codebox} {table next : Table}
  {changes : List Change} {change : Change}

theorem mem_entries_iff : (⟨key, box⟩ : Sigma fun _ : Key => Codebox) ∈ table.entries ↔
    table.lookup key = some box := by
  induction table using Finmap.induction_on with
  | H table => exact AList.mem_lookup_iff.symm

theorem lookup_store (table : Table) (box : Codebox) (key : Key) :
    (table.store box).lookup key = if box.key = key then some box else table.lookup key := by
  split
  next h =>
    subst h
    exact Finmap.lookup_insert table
  next h => exact Finmap.lookup_insert_of_ne table (Ne.symm h)

theorem lookup_foldl_store (boxes : List Codebox) (table : Table) (key : Key) :
    (boxes.foldl store table).lookup key = (lastWith key boxes).or (table.lookup key) := by
  induction boxes generalizing table with
  | nil => rfl
  | cons box boxes ih =>
    rw [List.foldl_cons, ih, lookup_store, Registry.lastWith_cons, Option.or_assoc]
    congr 1
    split <;> rfl

theorem lookup_collect (boxes : List Codebox) (key : Key) :
    (collect boxes).lookup key = lastWith key boxes := by
  rw [collect, lookup_foldl_store, Finmap.lookup_empty, Option.or_none]

theorem owned_of_lookup (h : ∀ key, table.lookup key = lastWith key boxes) : table.Owned := by
  rintro ⟨key, box⟩ hentry
  rw [mem_entries_iff, h] at hentry
  have hmem := List.mem_of_getLast? hentry
  simpa using (List.mem_filter.1 hmem).2

theorem nodup_of_visits (ho : table.Owned) (hv : Visits list table) :
    (list.map Codebox.key).Nodup := by
  have hkeys : ((list.map Codebox.key : List Key) : Multiset Key) = table.keys.val := by
    rw [← Multiset.map_coe, hv, Multiset.map_map]
    exact Multiset.map_congr rfl ho
  rw [← Multiset.coe_nodup, hkeys]
  exact table.keys.nodup

theorem lastWith_of_visits (ho : table.Owned) (hv : Visits list table) :
    lastWith key list = table.lookup key := by
  have hmem : ∀ box, box ∈ list ↔ table.lookup box.key = some box := by
    intro box
    rw [← Multiset.mem_coe, hv, Multiset.mem_map, ← mem_entries_iff]
    constructor
    · rintro ⟨⟨key, box⟩, hentry, rfl⟩
      obtain rfl : box.key = key := ho _ hentry
      exact hentry
    · exact fun hentry => ⟨_, hentry, rfl⟩
  cases hl : table.lookup key with
  | none =>
    rw [Registry.lastWith_eq_none_iff]
    rintro box hbox rfl
    simp [(hmem box).1 hbox] at hl
  | some box =>
    obtain rfl : box.key = key := ho _ (mem_entries_iff.2 hl)
    rw [← Registry.get?_ofList]
    exact Registry.get?_ofList_of_mem (nodup_of_visits ho hv) ((hmem box).2 hl)

theorem Becomes.lookup_eq (h : table.Becomes change next)
    (ht : ∀ key, table.lookup key = lastWith key boxes) (key : Key) :
    next.lookup key = lastWith key (change.inserted boxes) := by
  cases h with
  | insert box => rw [Change.inserted, lookup_store, Registry.lastWith_concat, ht]
  | rebuild list hv =>
    rw [lookup_collect, lastWith_of_visits (owned_of_lookup ht) hv, ht, Change.inserted]
  | collect boxes => exact lookup_collect boxes key

theorem Keeps.lookup_eq (h : Keeps changes table) (key : Key) :
    table.lookup key = lastWith key (Registry.inserted changes) := by
  induction h generalizing key with
  | start => rfl
  | step before last ih =>
    rw [Registry.inserted, List.foldl_concat]
    exact last.lookup_eq ih key

end

-- ---------------------------------------------------------------------------
-- Tables and registries
-- ---------------------------------------------------------------------------

structure Shows (reg : Registry) (table : Table) : Prop where
  get?_eq : ∀ key, reg.get? key = table.lookup key
  /-- An insertion gives back what was found under the key before. -/
  exchange_eq : ∀ box, (reg.exchange box).1 = reg.get? box.key
  size_eq : reg.size = table.keys.card
  isEmpty_iff : reg.isEmpty ↔ table = ∅
  contains_iff : ∀ key, reg.contains key ↔ ∃ box, reg.get? key = some box
  sorted_keys : reg.keys.Pairwise (· < ·)
  mem_keys_iff : ∀ key, key ∈ reg.keys ↔ key ∈ table
  /-- It may be rebuilt in any order. -/
  ofList_eq : ∀ list : List Codebox, list.Perm reg.boxes → Registry.ofList list = reg

theorem shows_of_lookup {reg : Registry} {table : Table}
    (h : ∀ key, reg.get? key = table.lookup key) : Shows reg table := by
  have hmem : ∀ key, key ∈ reg.keys ↔ key ∈ table := by
    intro key
    rw [Registry.mem_keys_iff, Finmap.mem_iff, h]
  have hkeys : reg.keys.toFinset = table.keys := by
    ext key
    rw [List.mem_toFinset, hmem, Finmap.mem_keys]
  have hsize : reg.size = table.keys.card :=
    calc reg.size
      _ = reg.keys.length := (List.length_map _).symm
      _ = reg.keys.toFinset.card := (List.toFinset_card_of_nodup reg.nodup_keys).symm
      _ = table.keys.card := by rw [hkeys]
  refine ⟨h, reg.exchange_fst, hsize, ?_, fun _ => Option.isSome_iff_exists, reg.sorted_keys, hmem,
    fun _ => Registry.ofList_of_perm⟩
  rw [Registry.isEmpty, List.isEmpty_iff_length_eq_zero, ← Registry.size, hsize]
  constructor
  · intro hnone
    refine Finmap.ext_lookup fun key => ?_
    rw [Finmap.lookup_empty, Finmap.lookup_eq_none, ← Finmap.mem_keys, Finset.card_eq_zero.1 hnone]
    exact Finset.notMem_empty key
  · rintro rfl
    rfl

/-- Let any changes be made to a registry that is kept in a table, whose codeboxes are visited in
any order when it is rebuilt. Then under every key there is the last codebox with that key that was
inserted since the last collection began, if there is one, and every codebox stands under the key of
its own name. The ordered registry after the same changes shows this table and no other. -/
theorem tables_keep_registries (changes : List Change) (table : Table) (h : Keeps changes table) :
    (∀ key, table.lookup key = lastWith key (Registry.inserted changes)) ∧ table.Owned ∧
      Shows (Registry.afterAll changes) table := by
  refine ⟨h.lookup_eq, owned_of_lookup h.lookup_eq, shows_of_lookup fun key => ?_⟩
  rw [Registry.get?_afterAll, h.lookup_eq]

def cellBox (name : String) (line : Nat) : Codebox := ⟨name, 1, 0, [['@']], ⟨"t", line⟩⟩

theorem tables_keep_registries_rebuilt :
    ∃ table, Keeps [.insert (cellBox "fib" 1), .insert (cellBox "" 5), .insert (cellBox "fact" 9),
        .rebuild] table ∧
      table.lookup (.command 'f') = some (cellBox "fact" 9) ∧
      Shows (Registry.afterAll [.insert (cellBox "fib" 1), .insert (cellBox "" 5),
        .insert (cellBox "fact" 9), .rebuild]) table := by
  have hvisits : Visits [cellBox "fact" 9, cellBox "" 5]
      (((store ∅ (cellBox "fib" 1)).store (cellBox "" 5)).store (cellBox "fact" 9)) := rfl
  have hkeeps := (((Keeps.start.step (.insert _)).step (.insert _)).step (.insert _)).step
    (.rebuild _ hvisits)
  obtain ⟨hlast, -, hshows⟩ := tables_keep_registries _ _ hkeeps
  exact ⟨_, hkeeps, hlast _, hshows⟩

end Table

end Gridwalk
