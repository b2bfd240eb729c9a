import ArcanaServer.Library.SortedTable
import Mathlib.Data.List.AList
import Mathlib.Data.Set.Card

namespace ArcanaServer.Library

open List

/-! Tables with one value for a key.  The order in which the entries are passed
through is left open. -/

abbrev EntryTable (κ υ : Type) := AList (fun _ : κ => υ)

section

variable {κ υ : Type}

/-- Some order of the entries. -/
structure Iteration (α : Type) where
  order : List α → List α
  perm : ∀ items, (order items).Perm items

def Iteration.inOrder (α : Type) : Iteration α := ⟨id, fun _ => .rfl⟩

namespace EntryTable

def retain (wanted : κ → υ → Bool) (table : EntryTable κ υ) :
    EntryTable κ υ where
  entries := table.entries.filter (fun entry => wanted entry.1 entry.2)
  nodupKeys := table.nodupKeys.sublist List.filter_sublist

def countWith (wanted : υ → Bool) (table : EntryTable κ υ) : Nat :=
  table.entries.countP (fun entry => wanted entry.2)

variable {table other : EntryTable κ υ} {wanted : υ → Bool}

theorem retain_sublist (kept : κ → υ → Bool) :
    (table.retain kept).entries.Sublist table.entries :=
  filter_sublist

theorem countWith_le (sublist : other.entries.Sublist table.entries) :
    other.countWith wanted ≤ table.countWith wanted :=
  sublist.countP_le

theorem countWith_le_length : table.countWith wanted ≤ table.entries.length :=
  countP_le_length

variable [DecidableEq κ] {key : κ} {value : υ}

theorem lookup_eq_some :
    table.lookup key = some value ↔ ⟨key, value⟩ ∈ table.entries :=
  AList.mem_lookup_iff

theorem mem_iff_lookup :
    key ∈ table ↔ ∃ value, table.lookup key = some value := by
  rw [← AList.lookup_isSome, Option.isSome_iff_exists]

theorem lookup_retain {kept : κ → υ → Bool} :
    (table.retain kept).lookup key = some value ↔
      table.lookup key = some value ∧ kept key value = true := by
  rw [lookup_eq_some, lookup_eq_some]
  exact mem_filter

theorem erase_sublist (key : κ) :
    (table.erase key).entries.Sublist table.entries :=
  kerase_sublist key table.entries

theorem countWith_insert_le :
    EntryTable.countWith wanted (table.insert key value) ≤
      table.countWith wanted + (if wanted value then 1 else 0) := by
  unfold countWith
  rw [AList.entries_insert, countP_cons]
  exact Nat.add_le_add_right (kerase_sublist _ _).countP_le _

theorem lookup_insert {other : κ} {inserted : υ} :
    (table.insert key inserted).lookup other =
      if other = key then some inserted else table.lookup other := by
  split
  next same => rw [same, AList.lookup_insert]
  next differs => rw [AList.lookup_insert_ne differs]

theorem lookup_erase {other : κ} : (table.erase key).lookup other =
      if other = key then none else table.lookup other := by
  split
  next same => rw [same, AList.lookup_erase]
  next differs => rw [AList.lookup_erase_ne differs]

theorem one_le_countWith (found : table.lookup key = some value)
    (counts : wanted value = true) :
    1 ≤ EntryTable.countWith wanted table :=
  one_le_countP_iff.mpr ⟨_, lookup_eq_some.mp found, counts⟩

theorem two_le_countWith {first second : κ} {one two : υ}
    (found : table.lookup first = some one) (counts : wanted one = true)
    (also : table.lookup second = some two) (alsoCounts : wanted two = true)
    (differs : first ≠ second) :
    2 ≤ EntryTable.countWith wanted table := by
  have distinct : [(⟨first, one⟩ : (_ : κ) × υ), ⟨second, two⟩].Nodup := by
    simp [differs]
  have inside : [(⟨first, one⟩ : (_ : κ) × υ), ⟨second, two⟩] ⊆
      table.entries := by
    simp [lookup_eq_some.mp found, lookup_eq_some.mp also]
  have fewer := (subperm_of_subset distinct inside).countP_le
    (fun entry => wanted entry.2)
  simpa [counts, alsoCounts, countWith] using fewer

theorem lookup_of_sublist (sublist : other.entries.Sublist table.entries)
    (found : other.lookup key = some value) :
    table.lookup key = some value :=
  lookup_eq_some.mpr (sublist.subset (lookup_eq_some.mp found))

end EntryTable

section

variable {μ ω : Type}

structure Twins (respell : κ → μ) (table : EntryTable κ υ)
    (twin : EntryTable μ ω) : Prop where
  agrees : ∀ key, respell key ∈ twin ↔ key ∈ table
  respelled : ∀ other ∈ twin, ∃ key, respell key = other

namespace Twins

variable {respell : κ → μ} {table : EntryTable κ υ} {twin : EntryTable μ ω}

theorem empty : Twins respell (∅ : EntryTable κ υ) (∅ : EntryTable μ ω) where
  agrees := fun key =>
    iff_of_false (AList.notMem_empty _) (AList.notMem_empty key)
  respelled := fun other member => absurd member (AList.notMem_empty other)

variable [DecidableEq κ] [DecidableEq μ]

theorem insert (twins : Twins respell table twin)
    (injective : respell.Injective) (key : κ) (value : υ) (other : ω) :
    Twins respell (table.insert key value) (twin.insert (respell key) other)
    where
  agrees := by
    intro inner
    rw [AList.mem_insert, AList.mem_insert, injective.eq_iff,
      twins.agrees inner]
  respelled := by
    intro inner member
    rcases AList.mem_insert _ |>.mp member with here | old
    · exact ⟨key, here.symm⟩
    · exact twins.respelled inner old

theorem erase (twins : Twins respell table twin)
    (injective : respell.Injective) (key : κ) :
    Twins respell (table.erase key) (twin.erase (respell key)) where
  agrees := by
    intro inner
    rw [AList.mem_erase, AList.mem_erase, injective.ne_iff, twins.agrees inner]
  respelled := by
    intro inner member
    exact twins.respelled inner (AList.mem_erase.mp member).2

end Twins

end

end

namespace EntryTable

section

variable {α β υ : Type} [DecidableEq α] {table : EntryTable (α × β) υ}
  {first : α} {second : β}

end

section

variable {σ κ υ : Type} [DecidableEq κ] {keyOf : σ → κ} {items : List σ}
  {table : EntryTable κ υ} {key : κ} {value : υ}

end

end EntryTable

namespace Twins

variable {σ κ μ υ ω : Type} [DecidableEq κ] [DecidableEq μ]
  {respell : κ → μ} {table : EntryTable κ υ} {twin : EntryTable μ ω}

section

variable (twins : Twins respell table twin) (injective : respell.Injective)
  (keyOf : σ → κ)
include twins injective keyOf

end

end Twins

open EntryTable SortedTable List

/-! Sorted tables whose keys are encodings of names. -/

section

variable {α : Type} {wanted wider : α → Bool} {items : List α}

/-- Counting more loosely counts the same only where it counts the same
items. -/
theorem countP_eq_countP_iff
    (implies : ∀ item ∈ items, wanted item = true → wider item = true) :
    items.countP wider = items.countP wanted ↔
      ∀ item ∈ items, wider item = true → wanted item = true := by
  have inner : items.countP wanted = (items.filter wider).countP wanted := by
    rw [countP_filter]
    refine countP_congr (fun item member => ?_)
    rw [Bool.and_eq_true]
    exact ⟨fun holds => ⟨holds, implies item member holds⟩, And.left⟩
  rw [inner, countP_eq_length_filter, eq_comm, countP_eq_length]
  constructor
  · intro all item member holds
    exact all item (mem_filter.mpr ⟨member, holds⟩)
  · intro all item member
    exact all item (mem_filter.mp member).1 (mem_filter.mp member).2

end

section

variable {ρ κ υ γ : Type} {rows : List (κ × υ)} {keyOf : ρ → κ}
  {stored : ρ → Option υ} {read : κ × υ → Option γ} {made : ρ → υ → γ}

theorem mem_filterMap_of_reads (scanned : ∀ key value, (key, value) ∈ rows ↔
      ∃ part, key = keyOf part ∧ stored part = some value)
    (reads : ∀ part value, read (keyOf part, value) = some (made part value))
    (injective : Function.Injective2 made) {part : ρ} {value : υ} :
    made part value ∈ rows.filterMap read ↔ stored part = some value := by
  rw [mem_filterMap]
  constructor
  · intro ⟨⟨key, found⟩, member, isMade⟩
    obtain ⟨other, isKey, isStored⟩ := (scanned key found).mp member
    rw [isKey, reads] at isMade
    obtain ⟨samePart, sameValue⟩ := injective (Option.some.inj isMade)
    rw [← samePart, ← sameValue]
    exact isStored
  · intro isStored
    exact ⟨_, (scanned _ _).mpr ⟨part, rfl, isStored⟩, reads part value⟩

end

variable {ν κ υ : Type} [LinearOrder κ] [DecidableEq ν]

def Encodes (encode : ν → κ) (table : SortedTable κ υ)
    (entries : EntryTable ν υ) : Prop :=
  ∀ key value, (key, value) ∈ table ↔
    ∃ name, encode name = key ∧ entries.lookup name = some value

namespace Encodes

variable {encode : ν → κ} {table : SortedTable κ υ}
  {entries : EntryTable ν υ} {name : ν} {value : υ}

theorem empty : Encodes encode (.empty : SortedTable κ υ) ∅ := by
  intro key value
  constructor
  · intro member
    exact absurd member not_mem_empty
  · intro ⟨name, _, found⟩
    cases found

section

variable (injective : Function.Injective encode)
  (encodes : Encodes encode table entries)
include injective encodes

theorem mem_iff :
    (encode name, value) ∈ table ↔ entries.lookup name = some value := by
  rw [encodes]
  constructor
  · intro ⟨other, same, found⟩
    rw [← injective same]
    exact found
  · intro found
    exact ⟨name, rfl, found⟩

theorem get : table.get (encode name) = entries.lookup name := by
  refine Option.ext fun value => ?_
  exact get_eq_some.trans (encodes.mem_iff injective)

end

theorem encodes_congr {others : EntryTable ν υ}
    (same : ∀ name, entries.lookup name = others.lookup name) :
    Encodes encode table entries ↔ Encodes encode table others := by
  unfold Encodes
  simp only [same]

section

variable (injective : Function.Injective encode)
  (encodes : Encodes encode table entries)
include injective encodes

theorem put : Encodes encode (table.put (encode name) value)
      (entries.insert name value) := by
  intro key other
  rw [mem_put, encodes]
  constructor
  · rintro (new | ⟨⟨older, isKey, found⟩, differs⟩)
    · cases new
      exact ⟨name, rfl, AList.lookup_insert entries⟩
    · have apart : older ≠ name := by
        intro same
        exact differs (same ▸ isKey.symm)
      refine ⟨older, isKey, ?_⟩
      rw [AList.lookup_insert_ne apart]
      exact found
  · intro ⟨older, isKey, found⟩
    rw [lookup_insert] at found
    split at found
    next same =>
      rw [← isKey, same, Option.some.inj found]
      exact .inl rfl
    next apart =>
      refine .inr ⟨⟨older, isKey, found⟩, ?_⟩
      rw [← isKey]
      exact fun same => apart (injective same)

theorem erase :
    Encodes encode (table.erase (encode name)) (entries.erase name) := by
  intro key other
  rw [mem_erase, encodes]
  constructor
  · intro ⟨⟨older, isKey, found⟩, differs⟩
    have apart : older ≠ name := by
      intro same
      exact differs (same ▸ isKey.symm)
    refine ⟨older, isKey, ?_⟩
    rw [AList.lookup_erase_ne apart]
    exact found
  · intro ⟨older, isKey, found⟩
    rw [lookup_erase] at found
    split at found
    · cases found
    next apart =>
      refine ⟨⟨older, isKey, found⟩, ?_⟩
      rw [← isKey]
      exact fun same => apart (injective same)

theorem rows_perm : table.rows.Perm
      (entries.entries.map fun entry => (encode entry.1, entry.2)) := by
  have entriesApart : (entries.entries.map fun entry =>
      (encode entry.1, entry.2)).Nodup := by
    refine List.Nodup.map ?_ (List.NodupKeys.nodup entries.nodupKeys)
    intro ⟨one, oneValue⟩ ⟨other, otherValue⟩ same
    obtain ⟨names, values⟩ := Prod.mk.inj same
    cases injective names
    cases values
    rfl
  refine (perm_ext_iff_of_nodup table.rows_nodup entriesApart).mpr ?_
  intro ⟨key, value⟩
  rw [mem_map]
  refine (encodes key value).trans ?_
  constructor
  · intro ⟨name, isKey, found⟩
    refine ⟨⟨name, value⟩, lookup_eq_some.mp found, ?_⟩
    rw [isKey]
  · intro ⟨⟨name, stored⟩, member, same⟩
    obtain ⟨isKey, isValue⟩ := Prod.mk.inj same
    refine ⟨name, isKey, ?_⟩
    rw [← isValue]
    exact lookup_eq_some.mpr member

end

end Encodes

namespace Encodes

variable {α : Type} [LinearOrder α] {encode : ν → List α}
  {table : SortedTable (List α) υ} {entries : EntryTable ν υ}
  {start : List α}

section

variable (injective : Function.Injective encode)
  (encodes : Encodes encode table entries)
include injective encodes

/-- Erasing a prefix of the encodings erases the entries that are to go if it
is a prefix of theirs alone. -/
theorem erasePrefix_iff {kept : ν → υ → Bool} :
    Encodes encode (table.erasePrefix start) (entries.retain kept) ↔
      ∀ name value, entries.lookup name = some value →
        (kept name value = true ↔ ¬ start <+: encode name) := by
  have erased : ∀ name value, (encode name, value) ∈ table.erasePrefix start ↔
      entries.lookup name = some value ∧ ¬ start <+: encode name := by
    intro name value
    rw [mem_erasePrefix, encodes.mem_iff injective]
  constructor
  · intro later name value found
    have both := (later.mem_iff injective).symm.trans (erased name value)
    rw [lookup_retain] at both
    exact ⟨fun keeps => (both.mp ⟨found, keeps⟩).2,
      fun apart => (both.mpr ⟨found, apart⟩).2⟩
  · intro exact_ key value
    constructor
    · intro member
      obtain ⟨name, isKey, found⟩ :=
        (encodes key value).mp (mem_erasePrefix.mp member).1
      rw [← isKey] at member
      refine ⟨name, isKey, lookup_retain.mpr ⟨found, ?_⟩⟩
      exact (exact_ name value found).mpr ((erased name value).mp member).2
    · intro ⟨name, isKey, found⟩
      obtain ⟨stored, keeps⟩ := lookup_retain.mp found
      rw [← isKey]
      exact (erased name value).mpr
        ⟨stored, (exact_ name value stored).mp keeps⟩

/-- Erasing a prefix of the encodings erases one entry if it is a prefix of no
other. -/
theorem erasePrefix_erase_iff {name : ν} (starts : start <+: encode name) :
    Encodes encode (table.erasePrefix start) (entries.erase name) ↔
      ∀ other ∈ entries, start <+: encode other → other = name := by
  have retained : ∀ other, (entries.erase name).lookup other =
      (retain (fun kept _ => decide (kept ≠ name))
        entries).lookup other := by
    intro other
    refine Option.ext fun value => ?_
    rw [lookup_erase, lookup_retain]
    split
    next same => simp [same]
    next differs => simp [differs]
  rw [encodes_congr retained, encodes.erasePrefix_iff injective]
  constructor
  · intro exact_ other stored begins
    obtain ⟨value, found⟩ := mem_iff_lookup.mp stored
    by_contra differs
    exact (exact_ other value found).mp (decide_eq_true differs) begins
  · intro only other value found
    rw [decide_eq_true_eq]
    constructor
    · intro differs begins
      exact differs (only other (mem_iff_lookup.mpr ⟨value, found⟩) begins)
    · intro apart same
      exact apart (same ▸ starts)

theorem length_scanPrefix : (table.scanPrefix start).length =
      entries.entries.countP (fun entry =>
        start.isPrefixOf (encode entry.1)) := by
  unfold scanPrefix
  rw [scanRows_eq_filter start table.rows table.sorted,
    ← countP_eq_length_filter,
    (encodes.rows_perm injective).countP_eq, countP_map]
  rfl

end

end Encodes

end ArcanaServer.Library
