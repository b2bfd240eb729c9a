import Mathlib.Data.List.AList
import Mathlib.Data.List.Induction

namespace ArcanaServer.Library

open List AList

variable {α κ : Type} [DecidableEq α] [DecidableEq κ]

abbrev Tally (α : Type) := AList (fun _ : α => Nat)

namespace Tally

def add (tally : Tally α) (value : α) : Tally α :=
  tally.insert value ((tally.lookup value).getD 0 + 1)

def of (values : List α) : Tally α := values.foldl add ∅

theorem of_snoc (values : List α) (value : α) :
    of (values ++ [value]) = (of values).add value := by
  simp [of]

theorem lookup_of (values : List α) (value : α) : (of values).lookup value =
      if value ∈ values then some (values.count value) else none := by
  induction values using reverseRecOn with
  | nil => simp [of]
  | append_singleton values last ih =>
      rw [of_snoc, add]
      rcases Decidable.em (value = last) with same | different
      · subst same
        rw [lookup_insert, ih]
        rcases Decidable.em (value ∈ values) with earlier | fresh
        · simp [earlier]
        · simp [fresh, count_eq_zero_of_not_mem]
      · have other : ¬ last = value := fun same => different same.symm
        rw [lookup_insert_ne different, ih]
        simp [different, count_append, other]

theorem mem_entries_of {values : List α} {value : α} {count : Nat} :
    (⟨value, count⟩ : (_ : α) × Nat) ∈ (of values).entries ↔
      value ∈ values ∧ count = values.count value := by
  rw [← mem_lookup_iff, Option.mem_def, lookup_of]
  rcases Decidable.em (value ∈ values) with member | absent
  · simp [member, eq_comm]
  · simp [absent]

end Tally

def valuesAt (key : κ) (entries : List ((_ : κ) × α)) : List α :=
  entries.filterMap (fun entry =>
    if entry.1 = key then some entry.2 else none)

def addOccurrence (occurrences : AList (fun _ : κ => Tally α))
    (entry : (_ : κ) × α) : AList (fun _ : κ => Tally α) :=
  occurrences.insert entry.1 (((occurrences.lookup entry.1).getD ∅).add entry.2)

def occurrencesOf (entries : List ((_ : κ) × α)) :
    AList (fun _ : κ => Tally α) :=
  entries.foldl addOccurrence ∅

theorem lookup_occurrencesOf (entries : List ((_ : κ) × α)) (key : κ) :
    (occurrencesOf entries).lookup key = if valuesAt key entries = [] then none
      else some (Tally.of (valuesAt key entries)) := by
  induction entries using reverseRecOn with
  | nil => simp [occurrencesOf, valuesAt]
  | append_singleton entries last ih =>
      have step : occurrencesOf (entries ++ [last]) =
          addOccurrence (occurrencesOf entries) last := by
        simp [occurrencesOf]
      rw [step, addOccurrence]
      rcases Decidable.em (key = last.1) with same | different
      · have values : valuesAt key (entries ++ [last]) =
            valuesAt key entries ++ [last.2] := by
          simp [valuesAt, same]
        rw [values, Tally.of_snoc, same, lookup_insert, ← same, ih]
        rcases Decidable.em (valuesAt key entries = []) with empty | occupied
        · simp [empty, Tally.of]
        · simp [occupied]
      · have other : ¬ last.1 = key := fun same => different same.symm
        have values : valuesAt key (entries ++ [last]) =
            valuesAt key entries := by
          simp [valuesAt, other]
        rw [values, lookup_insert_ne different, ih]

theorem mem_entries_occurrencesOf {entries : List ((_ : κ) × α)} {key : κ}
    {tally : Tally α} :
    (⟨key, tally⟩ : (_ : κ) × Tally α) ∈ (occurrencesOf entries).entries ↔
      valuesAt key entries ≠ [] ∧ tally = Tally.of (valuesAt key entries) := by
  rw [← mem_lookup_iff, Option.mem_def, lookup_occurrencesOf]
  rcases Decidable.em (valuesAt key entries = []) with empty | occupied
  · simp [empty]
  · simp [occupied, eq_comm]

omit [DecidableEq α] in
theorem valuesAt_of_nodupKeys (key : κ) :
    ∀ entries : List ((_ : κ) × α), entries.NodupKeys →
      valuesAt key entries = (dlookup key entries).toList := by
  intro entries
  induction entries with
  | nil => intro _; rfl
  | cons entry rest ih =>
      intro nodup
      have restEq := ih (nodupKeys_cons.mp nodup).2
      have restFresh := (nodupKeys_cons.mp nodup).1
      obtain ⟨other, value⟩ := entry
      rcases Decidable.em (key = other) with same | different
      · subst same
        rw [dlookup_eq_none.mpr restFresh] at restEq
        have first : valuesAt key (⟨key, value⟩ :: rest) =
            value :: valuesAt key rest := by
          simp [valuesAt]
        rw [first, restEq, dlookup_cons_eq]
        rfl
      · have turned : ¬ other = key := fun same => different same.symm
        rw [dlookup_cons_ne _ _ different, ← restEq]
        simp [valuesAt, turned]

omit [DecidableEq α] in
theorem valuesAt_flatMap (tables : List (AList (fun _ : κ => α))) (key : κ) :
    valuesAt key (tables.flatMap entries) =
      tables.filterMap (fun table => table.lookup key) := by
  induction tables with
  | nil => rfl
  | cons table rest ih =>
      have single : valuesAt key table.entries =
          (table.lookup key).toList :=
        valuesAt_of_nodupKeys key table.entries table.nodupKeys
      have appended : valuesAt key ((table :: rest).flatMap entries) =
            valuesAt key table.entries ++
              valuesAt key (rest.flatMap entries) := by
        simp [valuesAt, filterMap_append]
      rw [appended, single, ih]
      cases found : table.lookup key <;> simp [found]

end ArcanaServer.Library
