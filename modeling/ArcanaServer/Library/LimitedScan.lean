import ArcanaServer.Library.Sequence
import Mathlib.Data.Finset.Card
import Mathlib.Data.Finset.Option
import Mathlib.Data.List.AList

namespace ArcanaServer.Library

open List

variable {ρ κ δ : Type} [DecidableEq κ]

/-- The rows that are read, with the keys that were seen before.  The row that
brings the last key is read, too. -/
def readUpTo (limit : Nat) (pick : ρ → Option κ) : Finset κ → List ρ → List ρ
  | _, [] => []
  | seen, row :: rest =>
      match pick row with
      | none => row :: readUpTo limit pick seen rest
      | some key =>
          if key ∈ seen then row :: readUpTo limit pick seen rest
          else if limit ≤ seen.card + 1 then [row]
          else row :: readUpTo limit pick (insert key seen) rest

section

variable {limit : Nat} {pick : ρ → Option κ} {seen : Finset κ} {row : ρ}
  {rows : List ρ}

theorem readUpTo_none (unpicked : pick row = none) :
    readUpTo limit pick seen (row :: rows) =
      row :: readUpTo limit pick seen rows := by
  simp only [readUpTo, unpicked]

section

variable {key : κ} (picked : pick row = some key)
include picked

theorem readUpTo_seen (old : key ∈ seen) :
    readUpTo limit pick seen (row :: rows) =
      row :: readUpTo limit pick seen rows := by
  simp only [readUpTo, picked, if_pos old]

theorem readUpTo_last (new : key ∉ seen) (full : limit ≤ seen.card + 1) :
    readUpTo limit pick seen (row :: rows) = [row] := by
  simp only [readUpTo, picked, if_neg new, if_pos full]

theorem readUpTo_new (new : key ∉ seen) (room : ¬ limit ≤ seen.card + 1) :
    readUpTo limit pick seen (row :: rows) =
      row :: readUpTo limit pick (insert key seen) rows := by
  simp only [readUpTo, picked, if_neg new, if_neg room]

end

theorem readUpTo_prefixOf (limit : Nat) (pick : ρ → Option κ)
    (seen : Finset κ) (rows : List ρ) :
    readUpTo limit pick seen rows <+: rows := by
  induction rows generalizing seen with
  | nil => exact nil_prefix
  | cons row rest ih =>
      unfold readUpTo
      split
      · exact cons_prefix_cons.mpr ⟨rfl, ih seen⟩
      · split
        · exact cons_prefix_cons.mpr ⟨rfl, ih seen⟩
        · split
          · exact cons_prefix_cons.mpr ⟨rfl, nil_prefix⟩
          · exact cons_prefix_cons.mpr ⟨rfl, ih _⟩

end

/-- The keys that are picked in front of the row. -/
def pickedBefore [DecidableEq ρ] (pick : ρ → Option κ) (rows : List ρ)
    (row : ρ) : Finset κ :=
  ((rows.takeWhile (fun other => other ≠ row)).filterMap pick).toFinset

section

variable [DecidableEq ρ] {limit : Nat} {pick : ρ → Option κ}

@[simp] theorem pickedBefore_self (row : ρ) (rows : List ρ) :
    pickedBefore pick (row :: rows) row = ∅ := by
  simp [pickedBefore]

theorem pickedBefore_cons {row first : ρ} (differs : first ≠ row)
    (rows : List ρ) :
    pickedBefore pick (first :: rows) row =
      (pick first).toFinset ∪ pickedBefore pick rows row := by
  unfold pickedBefore
  rw [takeWhile_cons_of_pos (by simpa using differs)]
  cases picked : pick first with
  | none => simp [picked]
  | some key =>
      rw [filterMap_cons_some picked, toFinset_cons, Finset.insert_eq]
      rfl

theorem card_pickedBefore_le (pick : ρ → Option κ) (rows : List ρ)
    (row : ρ) : (pickedBefore pick rows row).card ≤ rows.length :=
  calc (pickedBefore pick rows row).card
      ≤ ((rows.takeWhile (fun other => other ≠ row)).filterMap pick).length :=
        toFinset_card_le _
    _ ≤ (rows.takeWhile (fun other => other ≠ row)).length :=
        length_filterMap_le _ _
    _ ≤ rows.length := (takeWhile_sublist _).length_le

/-- A row is read if fewer keys than the limit are picked in front of it. -/
theorem mem_readUpTo {seen : Finset κ} {rows : List ρ} {row : ρ}
    (room : seen.card < limit) :
    row ∈ readUpTo limit pick seen rows ↔
      row ∈ rows ∧ (seen ∪ pickedBefore pick rows row).card < limit := by
  induction rows generalizing seen with
  | nil => simp [readUpTo]
  | cons first rest ih =>
      by_cases same : first = row
      · subst same
        have read : first ∈ readUpTo limit pick seen (first :: rest) := by
          unfold readUpTo
          split
          · exact mem_cons_self
          · split
            · exact mem_cons_self
            · split
              · exact mem_cons_self
              · exact mem_cons_self
        simpa [read] using room
      · have inside : row ∈ first :: rest ↔ row ∈ rest := by
          rw [mem_cons]
          exact or_iff_right (Ne.symm same)
        rw [pickedBefore_cons same, inside]
        cases picked : pick first with
        | none =>
            rw [readUpTo_none picked, mem_cons,
              or_iff_right (Ne.symm same), ih room]
            simp
        | some key =>
            have joined : seen ∪ (some key).toFinset ∪
                pickedBefore pick rest row =
                insert key seen ∪ pickedBefore pick rest row := by
              rw [Option.toFinset_some, Finset.union_comm seen,
                ← Finset.insert_eq]
            rw [← Finset.union_assoc, joined]
            by_cases old : key ∈ seen
            · rw [readUpTo_seen picked old, mem_cons,
                or_iff_right (Ne.symm same), ih room,
                Finset.insert_eq_of_mem old]
            · by_cases full : limit ≤ seen.card + 1
              · rw [readUpTo_last picked old full]
                have grown : limit ≤
                    (insert key seen ∪ pickedBefore pick rest row).card := by
                  calc limit ≤ seen.card + 1 := full
                    _ = (insert key seen).card :=
                      (Finset.card_insert_of_notMem old).symm
                    _ ≤ _ := Finset.card_le_card Finset.subset_union_left
                exact ⟨fun member =>
                  absurd (mem_singleton.mp member) (Ne.symm same),
                  fun both => absurd both.2 (not_lt.mpr grown)⟩
              · have more : (insert key seen).card < limit := by
                  rw [Finset.card_insert_of_notMem old]
                  exact not_le.mp full
                rw [readUpTo_new picked old full, mem_cons,
                  or_iff_right (Ne.symm same), ih more]

end

section

variable {count : ρ → Nat} {rows : List ρ}

theorem takeWhile_eq_filter (upper : Nat)
    (sorted : rows.Pairwise (fun row later => count row ≤ count later)) :
    rows.takeWhile (fun row => count row ≤ upper) =
      rows.filter (fun row => count row ≤ upper) :=
  (span_eq_filter_of_pairwise sorted fun _ _ _ _ le inside =>
    decide_eq_true (le.trans (of_decide_eq_true inside))).1

theorem dropWhile_eq_filter (since : Nat)
    (sorted : rows.Pairwise (fun row later => count row ≤ count later)) :
    rows.dropWhile (fun row => count row ≤ since) =
      rows.filter (fun row => since < count row) := by
  rw [(span_eq_filter_of_pairwise sorted fun _ _ _ _ le inside =>
    decide_eq_true (le.trans (of_decide_eq_true inside))).2]
  refine filter_congr fun row _ => ?_
  rw [← decide_not, decide_eq_decide, not_le]

end

def pickKey (pick : ρ → Option (κ × δ)) (row : ρ) : Option κ :=
  (pick row).map Prod.fst

structure Scanned (κ δ : Type) where
  upTo : Nat
  picked : AList (fun _ : κ => δ)

def Scanned.note (count : ρ → Nat) (pick : ρ → Option (κ × δ))
    (scanned : Scanned κ δ) (row : ρ) : Scanned κ δ where
  upTo := Nat.max scanned.upTo (count row)
  picked :=
    match pick row with
    | none => scanned.picked
    | some (key, value) => scanned.picked.insert key value

def scanRows (limit upper : Nat) (count : ρ → Nat) (pick : ρ → Option (κ × δ)) :
    List ρ → Scanned κ δ → Scanned κ δ
  | [], scanned => scanned
  | row :: rest, scanned =>
      if upper < count row then scanned
      else
        let scanned :=
          { scanned with upTo := Nat.max scanned.upTo (count row) }
        match pick row with
        | none => scanRows limit upper count pick rest scanned
        | some (key, value) =>
            let scanned :=
              { scanned with picked := scanned.picked.insert key value }
            if limit ≤ scanned.picked.keys.length then scanned
            else scanRows limit upper count pick rest scanned

section

variable {limit upper : Nat} {count : ρ → Nat} {pick : ρ → Option (κ × δ)}

theorem card_keys (picked : AList (fun _ : κ => δ)) :
    picked.keys.toFinset.card = picked.keys.length :=
  toFinset_card_of_nodup picked.keys_nodup

theorem keys_insert_toFinset (picked : AList (fun _ : κ => δ)) (key : κ)
    (value : δ) : (picked.insert key value).keys.toFinset =
      insert key picked.keys.toFinset := by
  ext other
  rw [mem_toFinset, Finset.mem_insert, mem_toFinset,
    ← AList.mem_keys, ← AList.mem_keys, AList.mem_insert]

variable {picked : AList (fun _ : κ => δ)} {key : κ} (value : δ)

theorem length_keys_insert_old (old : key ∈ picked) :
    (picked.insert key value).keys.length = picked.keys.length := by
  have inside : key ∈ picked.keys.toFinset :=
    mem_toFinset.mpr (AList.mem_keys.mp old)
  rw [← card_keys, keys_insert_toFinset, Finset.insert_eq_of_mem inside,
    card_keys]

theorem length_keys_insert_new (new : key ∉ picked) :
    (picked.insert key value).keys.length = picked.keys.length + 1 := by
  have outside : key ∉ picked.keys.toFinset :=
    fun inside => new (AList.mem_keys.mpr (mem_toFinset.mp inside))
  rw [← card_keys, keys_insert_toFinset,
    Finset.card_insert_of_notMem outside, card_keys]

theorem scanRows_eq_foldl (rows : List ρ) {scanned : Scanned κ δ}
    (room : scanned.picked.keys.length < limit) :
    scanRows limit upper count pick rows scanned =
      (readUpTo limit (pickKey pick) scanned.picked.keys.toFinset
        (rows.takeWhile (fun row => count row ≤ upper))).foldl
          (Scanned.note count pick) scanned := by
  induction rows generalizing scanned with
  | nil => rfl
  | cons row rest ih =>
      by_cases above : upper < count row
      · rw [takeWhile_cons_of_neg (by simpa using above)]
        simp only [scanRows, if_pos above]
        rfl
      · rw [takeWhile_cons_of_pos (by simpa using above)]
        simp only [scanRows, if_neg above]
        cases picks : pick row with
        | none =>
            rw [readUpTo_none (by simp [pickKey, picks]), foldl_cons]
            simp only [Scanned.note, picks]
            exact ih room
        | some entry =>
            obtain ⟨key, value⟩ := entry
            have found : pickKey pick row = some key := by
              simp [pickKey, picks]
            have grown := keys_insert_toFinset scanned.picked key value
            simp only
            by_cases old : key ∈ scanned.picked
            · have inside : key ∈ scanned.picked.keys.toFinset :=
                mem_toFinset.mpr (AList.mem_keys.mp old)
              have same := length_keys_insert_old value old
              rw [if_neg (by rw [same]; exact not_le.mpr room),
                readUpTo_seen found inside, foldl_cons, ih (same ▸ room),
                grown, Finset.insert_eq_of_mem inside]
              simp only [Scanned.note, picks]
            · have outside : key ∉ scanned.picked.keys.toFinset := fun inside =>
                old (AList.mem_keys.mpr (mem_toFinset.mp inside))
              have more := length_keys_insert_new value old
              rw [← card_keys scanned.picked] at more
              by_cases full : limit ≤ scanned.picked.keys.toFinset.card + 1
              · rw [if_pos (more ▸ full), readUpTo_last found outside full]
                simp only [foldl_cons, foldl_nil, Scanned.note, picks]
              · rw [if_neg (more ▸ full), readUpTo_new found outside full,
                  foldl_cons, ih (more ▸ not_le.mp full), grown]
                simp only [Scanned.note, picks]

theorem foldl_note_upTo_lt {rows : List ρ} {scanned : Scanned κ δ}
    {bound : Nat} :
    (rows.foldl (Scanned.note count pick) scanned).upTo < bound ↔
      scanned.upTo < bound ∧ ∀ row ∈ rows, count row < bound := by
  induction rows generalizing scanned with
  | nil => simp
  | cons row rest ih =>
      rw [foldl_cons, ih, forall_mem_cons, ← and_assoc]
      exact and_congr_left (fun _ => Nat.max_lt)

theorem lookup_foldl_note {rows : List ρ} {scanned : Scanned κ δ}
    (apart : rows.Pairwise (fun row later =>
      ∀ entry ∈ pick row, ∀ other ∈ pick later, entry.1 ≠ other.1))
    (fresh : ∀ row ∈ rows, ∀ entry ∈ pick row,
      scanned.picked.lookup entry.1 = none) {key : κ} {value : δ} :
    (rows.foldl (Scanned.note count pick) scanned).picked.lookup key =
        some value ↔
      scanned.picked.lookup key = some value ∨
        ∃ row ∈ rows, pick row = some (key, value) := by
  induction rows generalizing scanned with
  | nil => simp
  | cons row rest ih =>
      obtain ⟨first, later⟩ := pairwise_cons.mp apart
      have inRest := fun other member => fresh other
        (mem_cons_of_mem row member)
      rw [foldl_cons]
      cases picks : pick row with
      | none =>
          rw [ih later (by simpa only [Scanned.note, picks] using inRest)]
          simp [Scanned.note, picks]
      | some entry =>
          have fresh' : ∀ other ∈ rest, ∀ late ∈ pick other,
              (scanned.note count pick row).picked.lookup late.1 = none := by
            intro other member late picked
            simp only [Scanned.note, picks]
            rw [AList.lookup_insert_ne
              (Ne.symm (first other member entry picks late picked))]
            exact inRest other member late picked
          rw [ih later fresh']
          simp only [Scanned.note, picks]
          have vacant := fresh row mem_cons_self entry picks
          by_cases same : key = entry.1
          · subst same
            rw [AList.lookup_insert, vacant]
            constructor
            · rintro (isValue | ⟨other, member, picked⟩)
              · refine .inr ⟨row, mem_cons_self, ?_⟩
                rw [picks, ← Option.some.inj isValue]
              · exact .inr ⟨other, mem_cons_of_mem row member, picked⟩
            · rintro (nothing | ⟨other, member, picked⟩)
              · cases nothing
              · rcases mem_cons.mp member with here | inside
                · rw [here, picks] at picked
                  exact .inl (by rw [Option.some.inj picked])
                · exact .inr ⟨other, inside, picked⟩
          · rw [AList.lookup_insert_ne same]
            refine or_congr_right ⟨?_, ?_⟩
            · rintro ⟨other, member, picked⟩
              exact ⟨other, mem_cons_of_mem row member, picked⟩
            · rintro ⟨other, member, picked⟩
              rcases mem_cons.mp member with here | inside
              · rw [here, picks] at picked
                exact absurd (by rw [Option.some.inj picked]) same
              · exact ⟨other, inside, picked⟩

end

end ArcanaServer.Library
