import Mathlib.Data.Set.Insert

namespace ArcanaServer.Library

open List

/-- What is relied on in the crate `lru-cache`: only `insert` stores an entry,
and only a stored entry is found. -/
structure CacheLaws (Cache κ υ : Type) where
  capacity : Cache → Nat
  stored : Cache → Set (κ × υ)
  getMut : Cache → κ → Option υ × Cache
  insert : Cache → κ → υ → Cache
  remove : Cache → κ → Cache
  clear : Cache → Cache
  found : ∀ {cache key value}, (getMut cache key).1 = some value →
    (key, value) ∈ stored cache
  capacity_getMut : ∀ cache key, capacity (getMut cache key).2 = capacity cache
  stored_getMut : ∀ cache key, stored (getMut cache key).2 ⊆ stored cache
  stored_insert : ∀ cache key value,
    stored (insert cache key value) ⊆ {(key, value)} ∪ stored cache
  stored_remove : ∀ cache key, stored (remove cache key) ⊆ stored cache
  stored_clear : ∀ cache, stored (clear cache) = ∅
  mem_insert : ∀ cache key value, capacity cache ≠ 0 →
    (key, value) ∈ stored (insert cache key value)
  insert_full : ∀ cache key value, capacity cache = 0 →
    stored (insert cache key value) = ∅

namespace CacheLaws

variable {Cache κ υ : Type} {laws : CacheLaws Cache κ υ} {cache : Cache}
  {valid : κ → υ → Prop} {key : κ}

variable (laws) in
def Holds (valid : κ → υ → Prop) (cache : Cache) : Prop :=
  ∀ entry ∈ laws.stored cache, valid entry.1 entry.2

theorem Holds.insert (holds : laws.Holds valid cache) {value : υ}
    (ok : valid key value) : laws.Holds valid (laws.insert cache key value) := by
  intro entry member
  rcases laws.stored_insert cache key value member with new | old
  · cases new
    exact ok
  · exact holds entry old

theorem Holds.getMut (holds : laws.Holds valid cache) (key : κ) :
    (∀ value, (laws.getMut cache key).1 = some value → valid key value) ∧
      laws.Holds valid (laws.getMut cache key).2 := by
  constructor
  · intro value hit
    exact holds (key, value) (laws.found hit)
  · intro entry member
    exact holds entry (laws.stored_getMut cache key member)

theorem Holds.remove (holds : laws.Holds valid cache) (key : κ) :
    laws.Holds valid (laws.remove cache key) := by
  intro entry member
  exact holds entry (laws.stored_remove cache key member)

variable (laws) in
theorem holds_clear : laws.Holds valid (laws.clear cache) := by
  intro entry member
  rw [laws.stored_clear] at member
  exact absurd member (Set.notMem_empty entry)

variable (laws) in
theorem holds_insert_of_full (full : laws.capacity cache = 0) (key : κ)
    (value : υ) : laws.Holds valid (laws.insert cache key value) := by
  intro entry member
  rw [laws.insert_full cache key value full] at member
  exact absurd member (Set.notMem_empty entry)

end CacheLaws

variable {κ υ : Type} [DecidableEq κ]

/-- The entries are listed with the most recently used one first. -/
structure LruCache (κ υ : Type) where
  capacity : Nat
  entries : List (κ × υ)

namespace LruCache

variable (cache : LruCache κ υ) (key : κ)

def touch (value : υ) : List (κ × υ) :=
  (key, value) :: cache.entries.filter (fun entry => entry.1 ≠ key)

def getMut : Option υ × LruCache κ υ :=
  match cache.entries.lookup key with
  | some value => (some value, { cache with entries := cache.touch key value })
  | none => (none, cache)

def insert (value : υ) : LruCache κ υ :=
  { cache with entries := (cache.touch key value).take cache.capacity }

def containsKey : Bool × LruCache κ υ :=
  ((cache.getMut key).1.isSome, (cache.getMut key).2)

def remove : LruCache κ υ :=
  { cache with entries := cache.entries.filter (fun entry => entry.1 ≠ key) }

def clear (cache : LruCache κ υ) : LruCache κ υ :=
  { cache with entries := [] }

def Holds (valid : κ → υ → Prop) (cache : LruCache κ υ) : Prop :=
  ∀ entry ∈ cache.entries, valid entry.1 entry.2

theorem mem_touch {key : κ} {value : υ} {entry : κ × υ}
    (member : entry ∈ cache.touch key value) :
    entry ∈ ({(key, value)} : Set (κ × υ)) ∪ {old | old ∈ cache.entries} := by
  rcases mem_cons.mp member with new | old
  · exact .inl new
  · exact .inr (mem_filter.mp old).1

theorem mem_of_lookup {key : κ} {value : υ}
    (found : cache.entries.lookup key = some value) :
    (key, value) ∈ cache.entries := by
  obtain ⟨before, after, split, _⟩ := lookup_eq_some_iff.mp found
  simp [split]

theorem getMut_found {key : κ} {value : υ}
    (found : (cache.getMut key).1 = some value) :
    (key, value) ∈ cache.entries := by
  unfold getMut at found
  split at found
  next held =>
    cases found
    exact mem_of_lookup cache held
  · cases found

def laws : CacheLaws (LruCache κ υ) κ υ where
  capacity := capacity
  stored cache := {entry | entry ∈ cache.entries}
  getMut := getMut
  insert := insert
  remove := remove
  clear := clear
  found {cache} _ _ hit := getMut_found cache hit
  capacity_getMut cache key := by
    unfold getMut
    split <;> rfl
  stored_getMut cache key entry member := by
    unfold getMut at member
    split at member
    next held =>
      rcases mem_touch cache member with new | old
      · cases new
        exact mem_of_lookup cache held
      · exact old
    · exact member
  stored_insert cache key value entry member :=
    mem_touch cache (mem_of_mem_take member)
  stored_remove cache key entry member := (mem_filter.mp member).1
  stored_clear cache := by simp [clear]
  mem_insert cache key value room := by
    obtain ⟨places, same⟩ := Nat.exists_eq_succ_of_ne_zero room
    simp [insert, touch, same]
  insert_full cache key value full := by
    simp [insert, full]

variable {valid : κ → υ → Prop} {cache : LruCache κ υ}

theorem Holds.insert (holds : Holds valid cache) {key : κ} {value : υ}
    (ok : valid key value) : Holds valid (cache.insert key value) :=
  (show laws.Holds valid cache from holds).insert ok

theorem Holds.getMut (holds : Holds valid cache) (key : κ) :
    (∀ value, (cache.getMut key).1 = some value → valid key value) ∧
      Holds valid (cache.getMut key).2 :=
  (show laws.Holds valid cache from holds).getMut key

theorem Holds.remove (holds : Holds valid cache) (key : κ) :
    Holds valid (cache.remove key) :=
  (show laws.Holds valid cache from holds).remove key

end LruCache

end ArcanaServer.Library
