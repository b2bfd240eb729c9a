import Mathlib.Data.List.InsertIdx
import Mathlib.Data.List.Nodup
import Mathlib.Data.List.Perm.Basic
import Mathlib.Data.Set.Insert

namespace ArcanaServer.Library

open List

variable {ι : Type}

/-! Items that are handed out in two steps: they are looked up in the stock
first and taken out of it later. -/

/-- The items that ever came, those in stock, those that are looked up but not
taken yet, and those that are given away. -/
structure Handout (ι : Type) where
  known : Set ι
  stock : Set ι
  seen : List ι
  given : List ι

namespace Handout

/-- Taking an item out may take others with it. -/
inductive Step (before : Handout ι) : Handout ι → Prop
  | supply {known stock : Set ι} (item : ι) (isNew : item ∉ before.known)
      (grows : before.known ⊆ known) (isKnown : item ∈ known)
      (stocked : stock ⊆ insert item before.stock) :
      Step before ⟨known, stock, before.seen, before.given⟩
  | see (item : ι) (inStock : item ∈ before.stock)
      (unseen : item ∉ before.seen) :
      Step before ⟨before.known, before.stock, before.seen ++ [item],
        before.given⟩
  | take {stock : Set ι} (index : Nat) (item : ι)
      (found : before.seen[index]? = some item)
      (shrinks : stock ⊆ before.stock) (isGone : item ∉ stock) :
      Step before ⟨before.known, stock, before.seen.eraseIdx index,
        before.given ++ [item]⟩
  | giveUp {stock : Set ι} (index : Nat) (shrinks : stock ⊆ before.stock) :
      Step before ⟨before.known, stock, before.seen.eraseIdx index,
        before.given⟩
  | rest : Step before before

/-- No item is given away twice, since what is looked up or given away is
neither looked up nor given away a second time. -/
structure Single (handout : Handout ι) : Prop where
  nodup : (handout.seen ++ handout.given).Nodup
  known : ∀ item ∈ handout.seen ++ handout.given, item ∈ handout.known
  stocked : handout.stock ⊆ handout.known
  gone : ∀ item ∈ handout.given, item ∉ handout.stock

variable {before after : Handout ι}

theorem Single.given_nodup (single : before.Single) : before.given.Nodup :=
  (nodup_append.mp single.nodup).2.1

theorem Single.step (single : before.Single) (step : before.Step after) :
    after.Single := by
  cases step with
  | supply item isNew grows isKnown stocked =>
      refine ⟨single.nodup,
        fun other member => grows (single.known other member), ?_, ?_⟩
      · intro other inside
        rcases stocked inside with same | old
        · exact same ▸ isKnown
        · exact grows (single.stocked old)
      · intro other member inside
        rcases stocked inside with same | old
        · exact isNew (same ▸ single.known other (mem_append_right _ member))
        · exact single.gone other member old
  | see item inStock unseen =>
      have ungiven : item ∉ before.given :=
        fun member => single.gone item member inStock
      have perm : (item :: (before.seen ++ before.given)).Perm
          (before.seen ++ [item] ++ before.given) := by
        rw [append_assoc]
        exact perm_middle.symm
      refine ⟨perm.nodup_iff.mp (nodup_cons.mpr ⟨?_, single.nodup⟩), ?_,
        single.stocked, single.gone⟩
      · rw [mem_append]
        exact not_or.mpr ⟨unseen, ungiven⟩
      · intro other member
        rcases mem_cons.mp (perm.mem_iff.mpr member) with here | old
        · rw [here]
          exact single.stocked inStock
        · exact single.known other old
  | take index item found shrinks isGone =>
      obtain ⟨below, isItem⟩ := List.getElem?_eq_some_iff.mp found
      have perm : (before.seen ++ before.given).Perm
          (before.seen.eraseIdx index ++ (before.given ++ [item])) := by
        rw [← append_assoc]
        refine List.Perm.trans ?_ (perm_append_singleton item _).symm
        rw [← cons_append, ← isItem]
        exact (getElem_cons_eraseIdx_perm below).symm.append_right _
      refine ⟨perm.nodup_iff.mp single.nodup,
        fun other member => single.known other (perm.mem_iff.mpr member),
        shrinks.trans single.stocked, ?_⟩
      intro other member
      rcases mem_append.mp member with old | new
      · exact fun inside => single.gone other old (shrinks inside)
      · exact mem_singleton.mp new ▸ isGone
  | giveUp index shrinks =>
      have fewer : (before.seen.eraseIdx index ++ before.given).Sublist
          (before.seen ++ before.given) :=
        (eraseIdx_sublist _ index).append_right _
      exact ⟨single.nodup.sublist fewer,
        fun other member => single.known other (fewer.subset member),
        shrinks.trans single.stocked,
        fun other member inside => single.gone other member (shrinks inside)⟩
  | rest => exact single

end Handout

end ArcanaServer.Library
