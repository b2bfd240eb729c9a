import Mathlib.Data.List.AList
import Mathlib.Data.List.Induction

namespace ArcanaServer.Library

open Function List

/-! Hash containers are visited in an order that their owner does not choose. -/

/-- One iteration order of the hash containers of a program. -/
structure HashOrder where
  visit : {α : Type} → List α → List α
  perm : ∀ {α : Type} (list : List α), (visit list).Perm list

namespace HashOrder

def inserted : HashOrder where
  visit := id
  perm := @List.Perm.refl

variable {κ υ : Type}

def map (order : HashOrder) (table : AList (fun _ : κ => υ)) :
    AList (fun _ : κ => υ) :=
  ⟨order.visit table.entries,
    (List.perm_nodupKeys (order.perm table.entries)).mpr table.nodupKeys⟩

theorem lookup_map [DecidableEq κ] (order : HashOrder)
    (table : AList (fun _ : κ => υ)) (key : κ) :
    (order.map table).lookup key = table.lookup key :=
  AList.perm_lookup (order.perm table.entries)

theorem keys_map_perm (order : HashOrder) (table : AList (fun _ : κ => υ)) :
    (order.map table).keys.Perm table.keys :=
  (order.perm table.entries).map Sigma.fst

end HashOrder

theorem mem_keys_insert {κ υ : Type} [DecidableEq κ]
    {table : AList (fun _ : κ => υ)} {key other : κ} {value : υ} :
    other ∈ (table.insert key value).keys ↔
      other = key ∨ other ∈ table.keys := by
  rw [← AList.mem_keys, AList.mem_insert, ← AList.mem_keys]

section

variable {κ υ : Type} [DecidableEq κ]

/-- The later of two pairs with the same key stays. -/
def collect (pairs : List (κ × υ)) : AList (fun _ : κ => υ) :=
  pairs.foldl (fun table pair => table.insert pair.1 pair.2) ∅

theorem collect_snoc (pairs : List (κ × υ)) (pair : κ × υ) :
    collect (pairs ++ [pair]) = (collect pairs).insert pair.1 pair.2 := by
  simp [collect]

theorem lookup_collect_snoc (pairs : List (κ × υ)) (pair : κ × υ) (key : κ) :
    (collect (pairs ++ [pair])).lookup key =
      if key = pair.1 then some pair.2 else (collect pairs).lookup key := by
  rw [collect_snoc]
  split
  next same => rw [same, AList.lookup_insert]
  next different => rw [AList.lookup_insert_ne different]

omit [DecidableEq κ] in
theorem mem_of_key_ne {pairs : List (κ × υ)} {pair : κ × υ} {key : κ}
    {value : υ} (listed : (key, value) ∈ pairs ++ [pair])
    (different : key ≠ pair.1) : (key, value) ∈ pairs := by
  rcases mem_append.mp listed with old | new
  · exact old
  · rw [← mem_singleton.mp new] at different
    exact absurd rfl different

section

variable {pairs : List (κ × υ)} {key : κ} {value : υ}

theorem mem_of_lookup_collect (found : (collect pairs).lookup key = some value) :
    (key, value) ∈ pairs := by
  induction pairs using reverseRecOn with
  | nil => simp [collect] at found
  | append_singleton pairs pair ih =>
      rw [lookup_collect_snoc] at found
      split at found
      next same =>
        rw [same, ← Option.some.inj found]
        simp
      · exact mem_append_left _ (ih found)

theorem lookup_collect_isSome (listed : (key, value) ∈ pairs) :
    ∃ last, (collect pairs).lookup key = some last := by
  induction pairs using reverseRecOn with
  | nil => cases listed
  | append_singleton pairs pair ih =>
      rw [lookup_collect_snoc]
      split
      · exact ⟨_, rfl⟩
      next different => exact ih (mem_of_key_ne listed different)

theorem lookup_collect (listed : (key, value) ∈ pairs)
    (only : ∀ other, (key, other) ∈ pairs → other = value) :
    (collect pairs).lookup key = some value := by
  obtain ⟨last, found⟩ := lookup_collect_isSome listed
  rw [found, only last (mem_of_lookup_collect found)]

end

theorem collect_entries_perm {pairs others : List (κ × υ)}
    (same : ∀ pair, pair ∈ pairs ↔ pair ∈ others)
    (only : ∀ key left right, (key, left) ∈ pairs → (key, right) ∈ pairs →
      left = right) :
    (collect pairs).entries.Perm (collect others).entries := by
  refine lookup_ext (collect pairs).nodupKeys (collect others).nodupKeys
    (fun key value => ⟨fun found => ?_, fun found => ?_⟩)
  · have listed := mem_of_lookup_collect found
    refine lookup_collect ((same _).mp listed) (fun other otherListed => ?_)
    exact only key other value ((same _).mpr otherListed) listed
  · have listed := (same _).mpr (mem_of_lookup_collect found)
    exact lookup_collect listed (fun other otherListed =>
      only key other value otherListed listed)

theorem lookup_collect_append {before after : List (κ × υ)} {key : κ}
    {value : υ} (listed : (key, value) ∈ after) :
    (collect (before ++ after)).lookup key = (collect after).lookup key := by
  induction after using reverseRecOn with
  | nil => cases listed
  | append_singleton after pair ih =>
      rw [← append_assoc, lookup_collect_snoc, lookup_collect_snoc]
      split
      · rfl
      next different => exact ih (mem_of_key_ne listed different)

end

/-- What a table with one row written may contain. -/
theorem update_eq_some {κ υ : Type} [DecidableEq κ] {table : κ → Option υ}
    {key other : κ} {value found : υ}
    (row : update table key (some value) other = some found) :
    table other = some found ∨ other = key ∧ found = value := by
  rcases Decidable.em (other = key) with same | different
  · rw [same, update_self] at row
    exact .inr ⟨same, (Option.some.inj row).symm⟩
  · rw [update_of_ne different] at row
    exact .inl row

/-- A table with one row removed contains nothing new. -/
theorem update_none_eq_some {κ υ : Type} [DecidableEq κ]
    {table : κ → Option υ} {key other : κ} {found : υ}
    (row : update table key none other = some found) :
    table other = some found := by
  rcases Decidable.em (other = key) with same | different
  · rw [same, update_self] at row
    cases row
  · rw [update_of_ne different] at row
    exact row

end ArcanaServer.Library
