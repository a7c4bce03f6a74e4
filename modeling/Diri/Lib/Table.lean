/-
Maps of values that carry their own keys.

An index holds values no two of which have one key, so a key names at most one of them.
It stands for a hash map whose every entry is stored under a key read off its value.  The
order such a map hands its values out in is none of its own: a `Walk` is one such order.

Tables: finite maps with decidable keys.

A table is an `AList`, so that no key is in it twice.  Added here is what a mutable map
does to a value in place: `adjust` changes the value of one key, `mapValues` every value.
Both leave the keys alone, and `lookup` says what they make of each value.  `All` is a
property of every value of a table, with a rule for each way a table changes.
-/
import Mathlib.Data.List.AList
import Mathlib.Data.List.Basic
import Mathlib.Data.List.Nodup

namespace Diri

open List

variable {κ ν : Type} [DecidableEq κ] {key : ν → κ}

structure Index (key : ν → κ) where
  values : List ν
  nodup : (values.map key).Nodup

/-- An order a hash map may be walked in. -/
structure Walk (α : Type) where
  apply : List α → List α
  perm : ∀ values, (apply values).Perm values

/-- The order the values happen to be kept in. -/
def Walk.inOrder {α : Type} : Walk α := ⟨id, fun _ => .refl _⟩

/-- The walk that comes to one value first. -/
def Walk.first {α : Type} [DecidableEq α] (x : α) : Walk α where
  apply values := if x ∈ values then x :: values.erase x else values
  perm values := by
    split
    · rename_i h
      exact (perm_cons_erase h).symm
    · exact .refl _

/-- The walk that comes to one value last. -/
def Walk.last {α : Type} [DecidableEq α] (x : α) : Walk α where
  apply values := if x ∈ values then values.erase x ++ [x] else values
  perm values := by
    split
    · rename_i h
      exact perm_append_singleton x _ |>.trans (perm_cons_erase h).symm
    · exact .refl _

@[simp] theorem Walk.mem_apply {α : Type} {walk : Walk α} {values : List α} {x : α} :
    x ∈ walk.apply values ↔ x ∈ values := (walk.perm values).mem_iff

namespace Index

def empty : Index key := ⟨[], nodup_nil⟩

def lookup (k : κ) (index : Index key) : Option ν := index.values.find? fun v => key v = k

def contains (k : κ) (index : Index key) : Bool := (index.lookup k).isSome

def erase (k : κ) (index : Index key) : Index key where
  values := index.values.filter fun v => key v ≠ k
  nodup := index.nodup.sublist (filter_sublist.map key)

/-- The value takes the place of the one that had its key. -/
def insert (v : ν) (index : Index key) : Index key where
  values := v :: (index.erase (key v)).values
  nodup := by
    rw [List.map_cons, List.nodup_cons]
    refine ⟨fun h => ?_, (index.erase (key v)).nodup⟩
    obtain ⟨w, hw, hkey⟩ := List.mem_map.mp h
    simp [erase, hkey] at hw

/-- The values collected one after the other. -/
def ofList (values : List ν) : Index key := values.foldl (fun index v => index.insert v) empty

variable {index : Index key} {k k' : κ} {v w : ν}

theorem key_of_lookup (h : index.lookup k = some v) : key v = k := by
  simpa using find?_some h

theorem mem_of_lookup (h : index.lookup k = some v) : v ∈ index.values :=
  mem_of_find?_eq_some h

theorem lookup_of_mem (h : v ∈ index.values) : index.lookup (key v) = some v := by
  cases hfind : index.lookup (key v) with
  | none => exact absurd (find?_eq_none.mp hfind v h) (by simp)
  | some w =>
    have hkey := key_of_lookup hfind
    rw [inj_on_of_nodup_map index.nodup (mem_of_lookup hfind) h hkey]

theorem lookup_eq_some : index.lookup k = some v ↔ v ∈ index.values ∧ key v = k := by
  refine ⟨fun h => ⟨mem_of_lookup h, key_of_lookup h⟩, ?_⟩
  rintro ⟨hmem, rfl⟩
  exact lookup_of_mem hmem

end Index

end Diri

namespace Diri

variable {κ ν ν' : Type} [DecidableEq κ]

abbrev Table (κ ν : Type) : Type := AList fun _ : κ => ν

namespace Table

/-- Every value changed, with its key. -/
def mapValues (f : κ → ν → ν') (table : Table κ ν) : Table κ ν' where
  entries := table.entries.map fun entry => ⟨entry.1, f entry.1 entry.2⟩
  nodupKeys := by
    rw [List.NodupKeys, List.keys, List.map_map]
    exact table.nodupKeys

/-- The value of one key changed in place, if it has one. -/
def adjust (key : κ) (f : ν → ν) (table : Table κ ν) : Table κ ν :=
  table.mapValues fun k value => if k = key then f value else value

/-- The values, in the order of their entries. -/
def values (table : Table κ ν) : List ν := table.entries.map (·.2)

theorem lookup_mapValues (f : κ → ν → ν') (table : Table κ ν) (key : κ) :
    (table.mapValues f).lookup key = (table.lookup key).map (f key) :=
  List.dlookup_map₂ key

theorem lookup_adjust_self (key : κ) (f : ν → ν) (table : Table κ ν) :
    (table.adjust key f).lookup key = (table.lookup key).map f := by
  rw [adjust, lookup_mapValues]
  simp

variable {key other : κ} {table : Table κ ν}

theorem lookup_adjust_ne (h : other ≠ key) (f : ν → ν) (table : Table κ ν) :
    (table.adjust key f).lookup other = table.lookup other := by
  rw [adjust, lookup_mapValues]
  simp [h]

/-- Only what becomes of the value that is there matters. -/
theorem adjust_congr {key : κ} {f g : ν → ν}
    (h : ∀ value, table.lookup key = some value → f value = g value) :
    table.adjust key f = table.adjust key g := by
  refine AList.ext (List.map_congr_left fun entry hentry => ?_)
  by_cases hkey : entry.1 = key
  · subst hkey
    have hvalue := h entry.2 (AList.mem_lookup_iff.mpr hentry)
    simp [hvalue]
  · simp [hkey]

/-- The values of several keys changed in place, one after the other. -/
def adjustEach {α : Type} (key : α → κ) (f : α → ν → ν) (items : List α) (table : Table κ ν) :
    Table κ ν :=
  items.foldl (fun table item => table.adjust (key item) (f item)) table

theorem lookup_adjustEach_of_notMem {α : Type} {key : α → κ} {f : α → ν → ν} {items : List α}
    {other : κ} (h : other ∉ items.map key) (table : Table κ ν) :
    (table.adjustEach key f items).lookup other = table.lookup other := by
  induction items generalizing table with
  | nil => rfl
  | cons item rest ih =>
    rw [List.map_cons, List.mem_cons, not_or] at h
    rw [adjustEach, List.foldl_cons]
    exact (ih h.2 _).trans (lookup_adjust_ne h.1 _ _)

theorem lookup_adjustEach_of_mem {α : Type} {key : α → κ} {f : α → ν → ν} {items : List α}
    (hnodup : (items.map key).Nodup) {item : α} (h : item ∈ items) (table : Table κ ν) :
    (table.adjustEach key f items).lookup (key item) = (table.lookup (key item)).map (f item) := by
  induction items generalizing table with
  | nil => cases h
  | cons first rest ih =>
    rw [List.map_cons, List.nodup_cons] at hnodup
    rw [adjustEach, List.foldl_cons]
    rcases List.mem_cons.mp h with rfl | hrest
    · exact (lookup_adjustEach_of_notMem hnodup.1 _).trans (lookup_adjust_self _ _ _)
    have hne : key item ≠ key first := by
      intro heq
      exact hnodup.1 (heq ▸ List.mem_map_of_mem hrest)
    refine (ih hnodup.2 hrest _).trans ?_
    rw [lookup_adjust_ne hne]

/-- A value of the changed table is an old one, or what became of the key's own. -/
theorem lookup_adjust {f : ν → ν} {value : ν} (h : (table.adjust key f).lookup other = some value) :
    (other ≠ key ∧ table.lookup other = some value) ∨
      (other = key ∧ ∃ old, table.lookup key = some old ∧ value = f old) := by
  by_cases hkey : other = key
  · subst hkey
    rw [lookup_adjust_self] at h
    obtain ⟨old, hold, hvalue⟩ := Option.map_eq_some_iff.mp h
    exact .inr ⟨rfl, old, hold, hvalue.symm⟩
  · rw [lookup_adjust_ne hkey] at h
    exact .inl ⟨hkey, h⟩

/-- A value of the table after an insertion is the one inserted or an old one. -/
theorem lookup_insert_cases {value found : ν}
    (h : (table.insert key value).lookup other = some found) :
    (other = key ∧ found = value) ∨ (other ≠ key ∧ table.lookup other = some found) := by
  by_cases hkey : other = key
  · subst hkey
    rw [AList.lookup_insert, Option.some.injEq] at h
    exact .inl ⟨rfl, h.symm⟩
  · rw [AList.lookup_insert_ne hkey] at h
    exact .inr ⟨hkey, h⟩

/-- A value of the table after a deletion is an old one, of another key. -/
theorem lookup_erase_cases {found : ν} (h : (table.erase key).lookup other = some found) :
    other ≠ key ∧ table.lookup other = some found := by
  by_cases hkey : other = key
  · subst hkey
    rw [AList.lookup_erase] at h
    cases h
  · rw [AList.lookup_erase_ne hkey] at h
    exact ⟨hkey, h⟩

theorem mem_values {value : ν} : value ∈ table.values ↔ ∃ key, table.lookup key = some value := by
  unfold values
  rw [List.mem_map]
  constructor
  · rintro ⟨⟨key, value⟩, hmem, rfl⟩
    exact ⟨key, AList.mem_lookup_iff.mpr hmem⟩
  · rintro ⟨key, hlookup⟩
    exact ⟨⟨key, value⟩, AList.mem_lookup_iff.mp hlookup, rfl⟩

@[simp] theorem mem_mapValues {f : κ → ν → ν} {key : κ} :
    key ∈ table.mapValues f ↔ key ∈ table := by
  rw [← AList.lookup_isSome, ← AList.lookup_isSome, lookup_mapValues, Option.isSome_map]

@[simp] theorem mem_adjust {f : ν → ν} : other ∈ table.adjust key f ↔ other ∈ table := mem_mapValues

theorem mem_of_lookup {key : κ} {value : ν} (h : table.lookup key = some value) : key ∈ table := by
  rw [← AList.lookup_isSome, h]
  rfl

/-- What every value of a table has. -/
def All (P : κ → ν → Prop) (table : Table κ ν) : Prop :=
  ∀ key value, table.lookup key = some value → P key value

variable {P : κ → ν → Prop} {table : Table κ ν}

theorem All.empty : All P (∅ : Table κ ν) := by
  intro key value h
  cases h

theorem All.insert (h : All P table) {key : κ} {value : ν} (hvalue : P key value) :
    All P (AList.insert key value table) := by
  intro other found hfound
  rcases lookup_insert_cases hfound with ⟨rfl, rfl⟩ | ⟨-, hold⟩
  · exact hvalue
  · exact h other found hold

theorem All.erase (h : All P table) (key : κ) : All P (AList.erase key table) := by
  intro other found hfound
  exact h other found (lookup_erase_cases hfound).2

theorem All.adjust (h : All P table) {key : κ} {f : ν → ν}
    (hf : ∀ value, table.lookup key = some value → P key (f value)) :
    All P (table.adjust key f) := by
  intro other found hfound
  rcases lookup_adjust hfound with ⟨-, hold⟩ | ⟨rfl, old, hold, rfl⟩
  · exact h other found hold
  · exact hf old hold

theorem All.mapValues (f : κ → ν → ν) (hf : ∀ key value, table.lookup key = some value →
    P key (f key value)) : All P (table.mapValues f) := by
  intro key found hfound
  rw [lookup_mapValues] at hfound
  obtain ⟨value, hvalue, rfl⟩ := Option.map_eq_some_iff.mp hfound
  exact hf key value hvalue

theorem All.mono {Q : κ → ν → Prop} (h : All P table)
    (himp : ∀ key value, P key value → Q key value) : All Q table :=
  fun key value hlookup => himp key value (h key value hlookup)

theorem all_iff : All P table ↔ ∀ entry ∈ table.entries, P entry.1 entry.2 := by
  constructor
  · intro h entry hentry
    exact h entry.1 entry.2 (AList.mem_lookup_iff.mpr hentry)
  · intro h key value hlookup
    exact h ⟨key, value⟩ (AList.mem_lookup_iff.mp hlookup)

instance [∀ key value, Decidable (P key value)] : Decidable (All P table) :=
  decidable_of_iff _ all_iff.symm

end Table

end Diri
