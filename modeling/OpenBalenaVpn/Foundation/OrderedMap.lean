import Mathlib.Algebra.BigOperators.Group.List.Basic
import Mathlib.Data.List.Nodup
import Mathlib.Tactic.Abel

namespace OpenBalenaVpn

section Entries

variable {κ ν : Type*} [DecidableEq κ]

-- Assignment to a key keeps the position of a key that is there and appends a new one.
def setEntries (key : κ) (value : ν) : List (κ × ν) → List (κ × ν)
  | [] => [(key, value)]
  | entry :: rest =>
      if entry.1 = key then (key, value) :: rest else entry :: setEntries key value rest

theorem setEntries_keys (key : κ) (value : ν) (entries : List (κ × ν)) :
    (setEntries key value entries).map Prod.fst =
      if key ∈ entries.map Prod.fst then entries.map Prod.fst
      else entries.map Prod.fst ++ [key] := by
  induction entries with
  | nil => simp [setEntries]
  | cons entry rest ih =>
      by_cases he : entry.1 = key
      · simp [setEntries, he]
      · have hk : ¬key = entry.1 := Ne.symm he
        simp only [setEntries, he, if_false, List.map_cons, ih, List.mem_cons, hk, false_or]
        split <;> simp

theorem setEntries_nodup (key : κ) (value : ν) (entries : List (κ × ν))
    (hn : (entries.map Prod.fst).Nodup) : ((setEntries key value entries).map Prod.fst).Nodup := by
  rw [setEntries_keys]
  split
  · exact hn
  · rename_i hk
    exact List.nodup_append.mpr ⟨hn, List.nodup_singleton key, by
      intro other ho last hl he
      rw [List.mem_singleton] at hl
      exact hk (hl ▸ he ▸ ho)⟩

def getEntry (key : κ) : List (κ × ν) → Option ν
  | [] => none
  | entry :: rest => if entry.1 = key then some entry.2 else getEntry key rest

theorem getEntry_setEntries (key other : κ) (value : ν) (entries : List (κ × ν)) :
    getEntry other (setEntries key value entries) =
      if key = other then some value else getEntry other entries := by
  induction entries with
  | nil => simp [setEntries, getEntry]
  | cons entry rest ih =>
      by_cases he : entry.1 = key
      · by_cases ho : key = other <;> simp [setEntries, getEntry, he, ho]
      · by_cases ho : key = other
        · subst ho
          simp [setEntries, getEntry, he, ih]
        · simp [setEntries, getEntry, he, ih, ho]

theorem getEntry_eq_none_iff (key : κ) (entries : List (κ × ν)) :
    getEntry key entries = none ↔ key ∉ entries.map Prod.fst := by
  induction entries with
  | nil => simp [getEntry]
  | cons entry rest ih =>
      by_cases he : entry.1 = key
      · simp [getEntry, he]
      · simp [getEntry, he, ih, Ne.symm he]

theorem setEntries_of_notMem {key : κ} {entries : List (κ × ν)}
    (h : key ∉ entries.map Prod.fst) (value : ν) :
    setEntries key value entries = entries ++ [(key, value)] := by
  induction entries with
  | nil => rfl
  | cons entry rest ih =>
      rw [List.map_cons, List.mem_cons, not_or] at h
      rw [setEntries, if_neg (Ne.symm h.1), ih h.2]
      rfl

-- Assignment to a key that is there exchanges one value.
theorem setEntries_of_getEntry {key : κ} {old : ν} {entries : List (κ × ν)}
    (h : getEntry key entries = some old) :
    ∃ before after, entries = before ++ (key, old) :: after ∧
      ∀ value, setEntries key value entries = before ++ (key, value) :: after := by
  induction entries with
  | nil => cases h
  | cons entry rest ih =>
      rw [getEntry] at h
      by_cases he : entry.1 = key
      · rw [if_pos he] at h
        obtain rfl := Option.some.inj h
        exact ⟨[], rest, by rw [← he]; rfl, fun value => by rw [setEntries, if_pos he]; rfl⟩
      · rw [if_neg he] at h
        obtain ⟨before, after, hrest, hset⟩ := ih h
        refine ⟨entry :: before, after, by rw [hrest]; rfl, fun value => ?_⟩
        rw [setEntries, if_neg he, hset]
        rfl

theorem mem_of_getEntry {key : κ} {value : ν} {entries : List (κ × ν)}
    (h : getEntry key entries = some value) : (key, value) ∈ entries := by
  induction entries with
  | nil => cases h
  | cons entry rest ih =>
      rw [getEntry] at h
      split at h
      · rename_i he
        obtain rfl := Option.some.inj h
        exact he ▸ List.mem_cons_self
      · exact List.mem_cons_of_mem _ (ih h)

end Entries

-- A map that remembers the order in which its keys were first set.
structure OrderedMap (κ ν : Type*) where
  entries : List (κ × ν)
  nodup : (entries.map Prod.fst).Nodup

namespace OrderedMap

variable {κ ν : Type*}

def empty : OrderedMap κ ν := ⟨[], List.nodup_nil⟩

def keys (map : OrderedMap κ ν) : List κ := map.entries.map Prod.fst

def values (map : OrderedMap κ ν) : List ν := map.entries.map Prod.snd

def size (map : OrderedMap κ ν) : Nat := map.entries.length

variable [DecidableEq κ]

def get (map : OrderedMap κ ν) (key : κ) : Option ν := getEntry key map.entries

def set (map : OrderedMap κ ν) (key : κ) (value : ν) : OrderedMap κ ν :=
  ⟨setEntries key value map.entries, setEntries_nodup key value map.entries map.nodup⟩

def mapValues {μ : Type*} (map : OrderedMap κ ν) (f : ν → μ) : OrderedMap κ μ :=
  ⟨map.entries.map (Prod.map id f), by simpa [Function.comp_def] using map.nodup⟩

omit [DecidableEq κ] in
theorem keys_nodup (map : OrderedMap κ ν) : map.keys.Nodup := map.nodup

omit [DecidableEq κ] in
theorem size_eq_length_keys (map : OrderedMap κ ν) : map.size = map.keys.length := by
  simp [size, keys]

omit [DecidableEq κ] in
theorem length_values (map : OrderedMap κ ν) : map.values.length = map.size := by
  simp [size, values]

@[simp] theorem get_empty (key : κ) : (empty : OrderedMap κ ν).get key = none := rfl

theorem get_set (map : OrderedMap κ ν) (key other : κ) (value : ν) :
    (map.set key value).get other = if key = other then some value else map.get other :=
  getEntry_setEntries key other value map.entries

@[simp] theorem get_set_self (map : OrderedMap κ ν) (key : κ) (value : ν) :
    (map.set key value).get key = some value := by simp [get_set]

theorem get_set_of_ne (map : OrderedMap κ ν) (key other : κ) (value : ν) (hne : key ≠ other) :
    (map.set key value).get other = map.get other := by simp [get_set, hne]

theorem get_mapValues {μ : Type*} (map : OrderedMap κ ν) (f : ν → μ) (key : κ) :
    (map.mapValues f).get key = (map.get key).map f := by
  simp only [get, mapValues]
  induction map.entries with
  | nil => rfl
  | cons entry rest ih =>
      by_cases he : entry.1 = key
      · simp [getEntry, he]
      · simp [getEntry, he, ih]

theorem get_eq_none_iff (map : OrderedMap κ ν) (key : κ) :
    map.get key = none ↔ key ∉ map.keys := getEntry_eq_none_iff key map.entries

theorem mem_keys_iff (map : OrderedMap κ ν) (key : κ) :
    key ∈ map.keys ↔ (map.get key).isSome := by
  rw [Option.isSome_iff_ne_none, ne_eq, get_eq_none_iff, not_not]

theorem keys_set (map : OrderedMap κ ν) (key : κ) (value : ν) :
    (map.set key value).keys =
      if key ∈ map.keys then map.keys else map.keys ++ [key] :=
  setEntries_keys key value map.entries

theorem values_set_of_get_eq_none {map : OrderedMap κ ν} {key : κ} (h : map.get key = none)
    (value : ν) : (map.set key value).values = map.values ++ [value] := by
  have hset := setEntries_of_notMem ((getEntry_eq_none_iff key map.entries).mp h) value
  simp [values, set, hset]

-- What the values have in common with those that they replace is kept.
theorem map_values_set {μ : Type*} {map : OrderedMap κ ν} {key : κ} {old value : ν} {f : ν → μ}
    (h : map.get key = some old) (hf : f value = f old) :
    (map.set key value).values.map f = map.values.map f := by
  obtain ⟨before, after, hentries, hset⟩ := setEntries_of_getEntry h
  simp only [values, set, hset]
  simp [hentries, hf]

theorem sum_values_set {α : Type*} [AddCommGroup α] {map : OrderedMap κ ν} {key : κ} {old : ν}
    (h : map.get key = some old) (f : ν → α) (value : ν) :
    ((map.set key value).values.map f).sum = (map.values.map f).sum + (f value - f old) := by
  obtain ⟨before, after, hentries, hset⟩ := setEntries_of_getEntry h
  simp only [values, set, hset]
  simp only [hentries, List.map_append, List.map_cons, List.sum_append, List.sum_cons]
  abel

theorem sum_values_set_add {α : Type*} [AddCommMonoid α] {map : OrderedMap κ ν} {key : κ} {old : ν}
    (h : map.get key = some old) (f : ν → α) (value : ν) :
    ((map.set key value).values.map f).sum + f old = (map.values.map f).sum + f value := by
  obtain ⟨before, after, hentries, hset⟩ := setEntries_of_getEntry h
  simp only [values, set, hset]
  simp only [hentries, List.map_append, List.map_cons, List.sum_append, List.sum_cons]
  abel

theorem map_get_keys (map : OrderedMap κ ν) : map.keys.map map.get = map.values.map some := by
  have hmem : ∀ entries : List (κ × ν), (entries.map Prod.fst).Nodup →
      ∀ entry ∈ entries, getEntry entry.1 entries = some entry.2 := by
    intro entries
    induction entries with
    | nil => exact fun _ _ h => absurd h List.not_mem_nil
    | cons entry rest ih =>
        intro hnodup other hother
        obtain ⟨hfirst, hrest⟩ := List.nodup_cons.mp hnodup
        rw [getEntry]
        rcases List.mem_cons.mp hother with rfl | hin
        · exact if_pos rfl
        · have hne : entry.1 ≠ other.1 := fun he =>
            hfirst (he ▸ List.mem_map_of_mem hin)
          rw [if_neg hne]
          exact ih hrest other hin
  rw [keys, values, List.map_map, List.map_map]
  exact List.map_congr_left fun entry hentry => hmem map.entries map.nodup entry hentry

theorem exists_get_of_mem {map : OrderedMap κ ν} {value : ν} (h : value ∈ map.values) :
    ∃ key, map.get key = some value := by
  have hmem : some value ∈ map.keys.map map.get := by
    rw [map_get_keys]
    exact List.mem_map_of_mem h
  obtain ⟨key, _, hget⟩ := List.mem_map.mp hmem
  exact ⟨key, hget⟩

theorem mem_values_of_get {map : OrderedMap κ ν} {key : κ} {value : ν}
    (h : map.get key = some value) : value ∈ map.values := by
  have hkey : key ∈ map.keys := by
    rw [mem_keys_iff, h]
    rfl
  have hmem : some value ∈ map.keys.map map.get := h ▸ List.mem_map_of_mem hkey
  rw [map_get_keys] at hmem
  obtain ⟨other, hother, heq⟩ := List.mem_map.mp hmem
  exact Option.some.inj heq ▸ hother

theorem size_set (map : OrderedMap κ ν) (key : κ) (value : ν) :
    (map.set key value).size = (map.keys.insert key).length := by
  rw [size_eq_length_keys, keys_set]
  by_cases hk : key ∈ map.keys
  · rw [if_pos hk, List.insert_of_mem hk]
  · rw [if_neg hk, List.insert_of_not_mem hk]
    simp

end OrderedMap

-- A set that remembers the order in which its elements were first added.
structure OrderedSet (κ : Type*) where
  elems : List κ
  nodup : elems.Nodup

namespace OrderedSet

variable {κ : Type*}

def empty : OrderedSet κ := ⟨[], List.nodup_nil⟩

def size (set : OrderedSet κ) : Nat := set.elems.length

instance : Membership κ (OrderedSet κ) := ⟨fun set key => key ∈ set.elems⟩

theorem mem_iff (set : OrderedSet κ) (key : κ) : key ∈ set ↔ key ∈ set.elems := Iff.rfl

@[simp] theorem notMem_empty (key : κ) : key ∉ (empty : OrderedSet κ) := List.not_mem_nil

variable [DecidableEq κ]

instance (set : OrderedSet κ) (key : κ) : Decidable (key ∈ set) :=
  inferInstanceAs (Decidable (key ∈ set.elems))

def add (set : OrderedSet κ) (key : κ) : OrderedSet κ :=
  if h : key ∈ set.elems then set
  else ⟨set.elems ++ [key], List.nodup_append.mpr ⟨set.nodup, List.nodup_singleton key,
    fun _ ho _ hl he => h (List.mem_singleton.mp hl ▸ he ▸ ho)⟩⟩

@[simp] theorem mem_add (set : OrderedSet κ) (key other : κ) :
    other ∈ set.add key ↔ other = key ∨ other ∈ set := by
  by_cases h : key ∈ set.elems
  · simp only [add, h, dif_pos]
    constructor
    · exact Or.inr
    · rintro (rfl | ho)
      · exact h
      · exact ho
  · simp only [add, h, dif_neg, not_false_eq_true, mem_iff, List.mem_append, List.mem_singleton]
    exact or_comm

-- `for (const key of keys) set.add(key)`
def addAll (set : OrderedSet κ) (keys : List κ) : OrderedSet κ := keys.foldl add set

@[simp] theorem mem_addAll (set : OrderedSet κ) (keys : List κ) (other : κ) :
    other ∈ set.addAll keys ↔ other ∈ keys ∨ other ∈ set := by
  induction keys generalizing set with
  | nil => simp [addAll]
  | cons key keys ih =>
      have h := ih (set.add key)
      simp only [addAll, List.foldl_cons, mem_add, List.mem_cons] at h ⊢
      rw [h]
      tauto

end OrderedSet

end OpenBalenaVpn
