import ArcanaServer.Library.Sequence
import Mathlib.Data.List.Sort

namespace ArcanaServer.Utils

open Library List

variable {Item : Type}

def intersection [DecidableEq Item] : List (List Item) → List Item
  | [] => []
  | first :: input =>
      first.filter (fun targ =>
        input.all (fun other => other.any (fun item => item = targ)))

theorem mem_intersection [DecidableEq Item] {targ : Item} {first : List Item}
    {input : List (List Item)} :
    targ ∈ intersection (first :: input) ↔
      targ ∈ first ∧ ∀ it ∈ input, targ ∈ it := by
  simp [intersection]

section

variable [LinearOrder Item]

/-- The peeked item leaves the iterator with the adaptor it was read into. -/
def skipPeek (targ : Item) (it : List Item) : Option Item × List Item :=
  let remaining := it.dropWhile (fun item => item < targ)
  (remaining.head?, remaining.tail)

/-- The iterators after the first one without the item stay where they are. -/
def allHave (targ : Item) : List (List Item) → Bool × List (List Item)
  | [] => (true, [])
  | it :: input =>
      let (peeked, it) := skipPeek targ it
      if peeked = some targ then
        let (found, input) := allHave targ input
        (found, it :: input)
      else (false, it :: input)

def filterSorted : List Item → List (List Item) → List Item
  | [], _ => []
  | targ :: first, input =>
      let (found, input) := allHave targ input
      if found then targ :: filterSorted first input
      else filterSorted first input

def intersectionSorted : List (List Item) → List Item
  | [] => []
  | first :: input => filterSorted first input

/-- The number of items from `low` on and before `high`. -/
def between (low high : Item) (items : List Item) : Nat :=
  items.countP (fun item => low ≤ item ∧ item < high)

/-- From some candidate on, more candidates come before the item than there
are items to peek at. -/
def Outrun (candidates it : List Item) (targ : Item) : Prop :=
  ∃ low ∈ candidates, low < targ ∧
    between low targ it < between low targ candidates

instance (candidates it : List Item) (targ : Item) :
    Decidable (Outrun candidates it targ) :=
  inferInstanceAs (Decidable (∃ low ∈ candidates, _))

def passed (candidates it : List Item) : List Item :=
  candidates.filter (fun targ => targ ∈ it ∧ ¬ Outrun candidates it targ)

/-- No item of `common` is outrun, at any iterator, by the candidates that
pass the iterators before it. -/
def NoneOutrun (common : List Item) : List Item → List (List Item) → Prop
  | _, [] => True
  | candidates, it :: input =>
      (∀ targ ∈ common, ¬ Outrun candidates it targ) ∧
        NoneOutrun common (passed candidates it) input

theorem filterSorted_cons (first it : List Item) (input : List (List Item)) :
    filterSorted first (it :: input) =
      filterSorted (filterSorted first [it]) input := by
  induction first generalizing it input with
  | nil => rfl
  | cons targ first ih =>
      simp only [filterSorted, allHave]
      rcases Decidable.em ((skipPeek targ it).1 = some targ) with
        same | different
      · simp only [same, if_true, filterSorted]
        rw [ih, ih]
      · simp only [different, if_false, Bool.false_eq_true]
        exact ih _ _

variable {low mid high targ first : Item} {items candidates it : List Item}

theorem between_cons : between low high (first :: items) =
      between low high items + if low ≤ first ∧ first < high then 1 else 0 := by
  simp [between, countP_cons]

theorem between_anti (le : low ≤ mid) :
    between mid high items ≤ between low high items :=
  countP_mono_left (fun item _ counted => by
    simp only [decide_eq_true_eq] at counted ⊢
    exact ⟨le.trans counted.1, counted.2⟩)

theorem between_eq (above : ∀ item ∈ items, mid ≤ item) (le : low ≤ mid) :
    between low high items = between mid high items :=
  countP_congr (fun item member => by
    simp [above item member, le.trans (above item member)])

/-- One candidate peeks at one item, the least that is left. -/
theorem passes_cons {remaining : List Item}
    (candidatesAbove : ∀ item ∈ candidates, first < item)
    (ordered : candidates.Pairwise (· < ·)) (le : first ≤ mid)
    (remainingAbove : ∀ item ∈ remaining, mid < item)
    (member : targ ∈ candidates) :
    (targ ∈ remaining ∧ ¬ Outrun candidates remaining targ) ↔
      (targ ∈ mid :: remaining ∧
        ¬ Outrun (first :: candidates) (mid :: remaining) targ) := by
  have below : first < targ := candidatesAbove targ member
  have candidateAt : ∀ low ∈ candidates,
      between low targ (first :: candidates) = between low targ candidates := by
    intro low inside
    rw [between_cons, if_neg, Nat.add_zero]
    exact fun counted => absurd counted.1 (candidatesAbove low inside).not_ge
  have candidatesFrom : between first targ (first :: candidates) =
      between first targ candidates + 1 := by
    rw [between_cons, if_pos ⟨le_refl _, below⟩]
  constructor
  · rintro ⟨inside, kept⟩
    refine ⟨mem_cons_of_mem _ inside, ?_⟩
    rintro ⟨low, isCandidate, before, fewer⟩
    rcases mem_cons.mp isCandidate with isFirst | later
    · subst isFirst
      rw [candidatesFrom, between_cons,
        if_pos ⟨le, remainingAbove targ inside⟩] at fewer
      -- The next candidate meets the same items with one candidate less.
      cases candidates with
      | nil => cases member
      | cons next rest =>
          have nextLeast : ∀ item ∈ next :: rest, next ≤ item := by
            intro item other
            rcases mem_cons.mp other with same | later
            · exact same.ge
            · exact (rel_of_pairwise_cons ordered later).le
          have isNext := (candidatesAbove next mem_cons_self).le
          rw [between_eq nextLeast isNext] at fewer
          have narrower : between next targ remaining ≤
              between low targ remaining := between_anti isNext
          refine kept ⟨next, mem_cons_self, ?_, by omega⟩
          refine (nextLeast targ member).lt_of_ne fun same => ?_
          subst same
          have none : between next next (next :: rest) = 0 :=
            countP_eq_zero.mpr (by simp)
          omega
    · rw [candidateAt low later, between_cons] at fewer
      exact kept ⟨low, later, before, by omega⟩
  · rintro ⟨inside, kept⟩
    have later : targ ∈ remaining := by
      refine (mem_cons.mp inside).resolve_left fun isMid => kept ?_
      refine ⟨first, mem_cons_self, below, ?_⟩
      have none : between first targ (mid :: remaining) = 0 := by
        refine countP_eq_zero.mpr fun item other => ?_
        have above : targ ≤ item := by
          rcases mem_cons.mp other with same | rest
          · exact (isMid.trans same.symm).le
          · exact isMid ▸ (remainingAbove item rest).le
        simp [above.not_gt]
      omega
    refine ⟨later, ?_⟩
    rintro ⟨low, isCandidate, before, fewer⟩
    have isBelow := candidatesAbove low isCandidate
    rcases lt_or_ge mid low with passedBy | ahead
    · refine kept ⟨low, mem_cons_of_mem _ isCandidate, before, ?_⟩
      rw [candidateAt low isCandidate, between_cons,
        if_neg fun counted => absurd counted.1 passedBy.not_ge]
      exact fewer
    · refine kept ⟨first, mem_cons_self, below, ?_⟩
      rw [candidatesFrom, between_cons, if_pos ⟨le, remainingAbove targ later⟩,
        between_eq (fun item member =>
          ahead.trans (remainingAbove item member).le) isBelow.le]
      have wider : between low targ candidates ≤
          between first targ candidates := between_anti isBelow.le
      omega

theorem between_dropWhile (ordered : it.Pairwise (· < ·)) (le : first ≤ low) :
    between low high (it.dropWhile (fun item => item < first)) =
      between low high it := by
  rw [(span_eq_filter_of_pairwise ordered fun one _ other _ before inside =>
    decide_eq_true (before.trans (of_decide_eq_true inside))).2]
  unfold between
  rw [countP_filter]
  refine countP_congr fun item _ => ?_
  simp only [Bool.and_eq_true, decide_eq_true_eq, Bool.not_eq_true',
    decide_eq_false_iff_not, not_lt, and_iff_left_iff_imp]
  exact fun counted => le.trans counted.1

theorem mem_dropWhile_lt (ordered : it.Pairwise (· < ·)) :
    targ ∈ it.dropWhile (fun item => item < first) ↔
      targ ∈ it ∧ first ≤ targ := by
  rw [(span_eq_filter_of_pairwise ordered fun one _ other _ before inside =>
    decide_eq_true (before.trans (of_decide_eq_true inside))).2]
  simp

theorem passed_cons (candidatesOrdered : (first :: candidates).Pairwise (· < ·))
    (ordered : it.Pairwise (· < ·)) :
    passed (first :: candidates) it =
      if (skipPeek first it).1 = some first then
        first :: passed candidates (skipPeek first it).2
      else passed candidates (skipPeek first it).2 := by
  obtain ⟨above, candidatesOrdered⟩ := pairwise_cons.mp candidatesOrdered
  have leftOrdered : (it.dropWhile (fun item => item < first)).Pairwise (· < ·) :=
    ordered.sublist (dropWhile_sublist _)
  have outrun : ∀ targ, Outrun (first :: candidates) it targ ↔
      Outrun (first :: candidates) (it.dropWhile (fun item => item < first))
        targ := by
    intro targ
    refine exists_congr fun low => and_congr_right fun isCandidate => ?_
    have le : first ≤ low := by
      rcases mem_cons.mp isCandidate with same | later
      · exact same.ge
      · exact (above low later).le
    rw [between_dropWhile ordered le]
  have firstKept : ¬ Outrun (first :: candidates) it first := by
    rintro ⟨low, isCandidate, before, _⟩
    rcases mem_cons.mp isCandidate with same | later
    · exact absurd same before.ne
    · exact (above low later).not_gt before
  have here : first ∈ it ↔ (skipPeek first it).1 = some first := by
    have left : first ∈ it ↔ first ∈ it.dropWhile (fun item => item < first) :=
      ⟨fun given => (mem_dropWhile_lt ordered).mpr ⟨given, le_refl _⟩,
        fun left => ((mem_dropWhile_lt ordered).mp left).1⟩
    rw [left]
    unfold skipPeek
    simp only
    refine ⟨fun inside => ?_, mem_of_head?⟩
    cases shape : it.dropWhile (fun item => item < first) with
    | nil => simp [shape] at inside
    | cons mid remaining =>
        rw [shape] at inside leftOrdered
        have least : first ≤ mid :=
          ((mem_dropWhile_lt ordered).mp (shape ▸ mem_cons_self)).2
        refine congrArg some (((mem_cons.mp inside).resolve_right ?_).symm)
        exact fun later => least.not_gt (rel_of_pairwise_cons leftOrdered later)
  have rest : ∀ targ ∈ candidates,
      (targ ∈ it ∧ ¬ Outrun (first :: candidates) it targ) ↔
        (targ ∈ (skipPeek first it).2 ∧
          ¬ Outrun candidates (skipPeek first it).2 targ) := by
    intro targ member
    have inside : targ ∈ it ↔ targ ∈ it.dropWhile (fun item => item < first) :=
      ⟨fun given => (mem_dropWhile_lt ordered).mpr ⟨given, (above targ member).le⟩,
        fun left => ((mem_dropWhile_lt ordered).mp left).1⟩
    rw [inside, outrun]
    unfold skipPeek
    simp only
    cases left : it.dropWhile (fun item => item < first) with
    | nil => simp
    | cons mid remaining =>
        rw [left] at leftOrdered
        have least : first ≤ mid :=
          ((mem_dropWhile_lt ordered).mp (left ▸ mem_cons_self)).2
        exact (passes_cons above candidatesOrdered least
          (fun _ => rel_of_pairwise_cons leftOrdered) member).symm
  have later : candidates.filter (fun targ =>
      targ ∈ it ∧ ¬ Outrun (first :: candidates) it targ) =
        passed candidates (skipPeek first it).2 :=
    filter_congr fun targ member => decide_eq_decide.mpr (rest targ member)
  rw [passed, filter_cons, later]
  simp only [here, firstKept, not_false_eq_true, and_true, decide_eq_true_eq]

theorem filterSorted_singleton (candidatesOrdered : candidates.Pairwise (· < ·))
    (ordered : it.Pairwise (· < ·)) :
    filterSorted candidates [it] = passed candidates it := by
  induction candidates generalizing it with
  | nil => rfl
  | cons first candidates ih =>
      have leftOrdered : (skipPeek first it).2.Pairwise (· < ·) :=
        ordered.sublist ((tail_sublist _).trans (dropWhile_sublist _))
      rw [passed_cons candidatesOrdered ordered,
        ← ih candidatesOrdered.of_cons leftOrdered]
      simp only [filterSorted, allHave]
      rcases Decidable.em ((skipPeek first it).1 = some first) with
        same | different
      · simp [same]
      · simp [different]

theorem filterSorted_sublist :
    ∀ (candidates : List Item) (input : List (List Item)),
      (filterSorted candidates input).Sublist candidates := by
  intro candidates
  induction candidates with
  | nil => exact fun _ => Sublist.refl _
  | cons first candidates ih =>
      intro input
      simp only [filterSorted]
      split
      · exact (ih _).cons_cons first
      · exact (ih _).cons first

theorem filterSorted_singleton_sublist {whole : List Item} :
    ∀ {it : List Item}, it ⊆ whole → (filterSorted candidates [it]).Sublist
      (candidates.filter (fun targ => whole.any (fun item => item = targ))) := by
  induction candidates with
  | nil => exact fun _ => Sublist.refl _
  | cons first candidates ih =>
      intro it within
      have left : it.dropWhile (fun item => item < first) ⊆ whole :=
        fun _ member => within ((dropWhile_sublist _).subset member)
      have later := ih (fun _ member => left (mem_of_mem_tail member))
      simp only [filterSorted, allHave]
      rcases Decidable.em ((skipPeek first it).1 = some first) with
        found | different
      · have member : first ∈ whole := left (mem_of_head? found)
        simp only [found, if_true]
        rw [filter_cons_of_pos (by simpa using member)]
        exact later.cons_cons first
      · simp only [different, if_false, Bool.false_eq_true]
        exact later.trans ((sublist_cons_self _ _).filter _)

/-- In whatever order its inputs are, the faster function yields items of the
plain one only, in their order and no more often. -/
theorem intersectionSorted_sublist (input : List (List Item)) :
    (intersectionSorted input).Sublist (intersection input) := by
  cases input with
  | nil => exact Sublist.refl _
  | cons first input =>
      induction input generalizing first with
      | nil =>
          have whole : intersection [first] = first :=
            filter_eq_self.mpr (fun _ _ => rfl)
          rw [whole]
          exact filterSorted_sublist first []
      | cons it input ih =>
          have narrowed : intersection (first :: it :: input) = intersection
              (first.filter (fun targ => it.any (fun item => item = targ)) ::
                input) := by
            simp only [intersection, filter_filter, all_cons, Bool.and_comm]
          rw [narrowed]
          change (filterSorted first (it :: input)).Sublist _
          rw [filterSorted_cons]
          exact (ih _).trans
            ((filterSorted_singleton_sublist (Subset.refl it)).filter _)

theorem mem_of_mem_filterSorted {input : List (List Item)}
    (candidatesOrdered : candidates.Pairwise (· < ·))
    (ordered : ∀ it ∈ input, it.Pairwise (· < ·))
    (member : targ ∈ filterSorted candidates input) :
    ∀ it ∈ input, targ ∈ it := by
  induction input generalizing candidates with
  | nil => intro it none; cases none
  | cons first input ih =>
      rw [filterSorted_cons, filterSorted_singleton candidatesOrdered
        (ordered first mem_cons_self)] at member
      have inside := (filterSorted_sublist _ _).mem member
      intro it given
      rcases mem_cons.mp given with same | later
      · rw [same]
        exact (of_decide_eq_true (mem_filter.mp inside).2).1
      · exact ih (candidatesOrdered.filter _)
          (fun it given => ordered it (mem_cons_of_mem _ given)) member it later

/-- The items of `common` are in all sequences. -/
theorem noneOutrun_iff {common : List Item} {input : List (List Item)}
    (candidatesOrdered : candidates.Pairwise (· < ·))
    (ordered : ∀ it ∈ input, it.Pairwise (· < ·))
    (shared : ∀ targ ∈ common, ∀ it ∈ input, targ ∈ it)
    (listed : ∀ targ ∈ common, targ ∈ candidates) :
    NoneOutrun common candidates input ↔
      ∀ targ ∈ common, targ ∈ filterSorted candidates input := by
  induction input generalizing candidates with
  | nil =>
      have whole : ∀ candidates : List Item, filterSorted candidates [] =
          candidates := by
        intro candidates
        induction candidates with
        | nil => rfl
        | cons first candidates ih => simp [filterSorted, allHave, ih]
      simpa [NoneOutrun, whole] using listed
  | cons it input ih =>
      rw [filterSorted_cons, filterSorted_singleton candidatesOrdered
        (ordered it mem_cons_self)]
      have passes : (∀ targ ∈ common, ¬ Outrun candidates it targ) ↔
          ∀ targ ∈ common, targ ∈ passed candidates it := by
        refine forall₂_congr fun targ member => ?_
        simp [passed, listed targ member, shared targ member it mem_cons_self]
      have passedOrdered : (passed candidates it).Pairwise (· < ·) :=
        candidatesOrdered.filter _
      have later := ih passedOrdered
        (fun other member => ordered other (mem_cons_of_mem _ member))
        (fun targ member other given =>
          shared targ member other (mem_cons_of_mem _ given))
      constructor
      · rintro ⟨kept, rest⟩
        exact (later (passes.mp kept)).mp rest
      · intro found
        have inside : ∀ targ ∈ common, targ ∈ passed candidates it :=
          fun targ member => (filterSorted_sublist _ _).mem (found targ member)
        exact ⟨passes.mpr inside, (later inside).mpr found⟩

/-- No item that all sequences have is outrun. -/
def Supplied : List (List Item) → Prop
  | [] => True
  | first :: input => NoneOutrun (intersection (first :: input)) first input

theorem intersectionSorted_eq_iff {input : List (List Item)}
    (ordered : ∀ it ∈ input, it.Pairwise (· < ·)) :
    intersectionSorted input = intersection input ↔ Supplied input := by
  cases input with
  | nil => exact iff_of_true rfl trivial
  | cons first input =>
      obtain ⟨firstOrdered, ordered⟩ := forall_mem_cons.mp ordered
      have shared : ∀ targ ∈ intersection (first :: input),
          targ ∈ first ∧ ∀ it ∈ input, targ ∈ it :=
        fun _ member => mem_intersection.mp member
      refine Iff.trans ?_ (noneOutrun_iff firstOrdered ordered
        (fun targ member => (shared targ member).2)
        (fun targ member => (shared targ member).1)).symm
      constructor
      · intro same targ member
        rw [← same] at member
        exact member
      · intro found
        refine (firstOrdered.sublist (filterSorted_sublist _ _)).eq_of_mem_iff
          (firstOrdered.filter _) fun targ => ⟨fun member => ?_, found targ⟩
        exact mem_intersection.mpr ⟨(filterSorted_sublist _ _).mem member,
          mem_of_mem_filterSorted firstOrdered ordered member⟩

theorem intersectionSorted_eq_iff_pairs :
    (intersectionSorted [[1, 2, 4], [2, 3, 4]] =
      intersection [[1, 2, 4], [2, 3, 4]] ↔ Supplied [[1, 2, 4], [2, 3, 4]]) :=
  intersectionSorted_eq_iff (by decide)

/-- The search for the first item uses the second one up. -/
theorem intersectionSorted_skips :
    intersectionSorted [[1, 2], [2]] = [] ∧ intersection [[1, 2], [2]] = [2] := by
  decide

end

/-- `next_if` as long as the item of `b` is at most `ai`. -/
def nextUpTo [LE Item] [DecidableLE Item] [DecidableEq Item] (ai : Item) :
    List Item → Bool × List Item
  | [] => (false, [])
  | bi :: b =>
      if bi ≤ ai then if ai = bi then (true, b) else nextUpTo ai b
      else (false, bi :: b)

def intersectionSortedStream2 [LE Item] [DecidableLE Item] [DecidableEq Item] :
    List Item → List Item → List Item
  | [], _ => []
  | ai :: a, b =>
      let (found, b) := nextUpTo ai b
      if found then ai :: intersectionSortedStream2 a b
      else intersectionSortedStream2 a b

section

variable [PartialOrder Item] [DecidableLE Item] [DecidableEq Item]
  {ai : Item} {a b : List Item}

/-- What is dropped from `b` is not above `ai`. -/
theorem nextUpTo_spec (ordered : b.Pairwise (· < ·)) :
    ((nextUpTo ai b).1 = true ↔ ai ∈ b) ∧ (nextUpTo ai b).2.Sublist b ∧
      ∀ item, ai < item → item ∈ b → item ∈ (nextUpTo ai b).2 := by
  induction b with
  | nil => simp [nextUpTo]
  | cons bi b ih =>
      obtain ⟨above, ordered⟩ := pairwise_cons.mp ordered
      obtain ⟨found, part, later⟩ := ih ordered
      have keeps : bi ≤ ai → ∀ item, ai < item → item ∈ bi :: b → item ∈ b := by
        intro le item beyond member
        refine (mem_cons.mp member).resolve_left fun same => ?_
        exact (le.trans_lt beyond).ne same.symm
      unfold nextUpTo
      split
      next le =>
        split
        next same =>
          exact ⟨iff_of_true rfl (mem_cons.mpr (.inl same)),
            (Sublist.refl b).cons bi, keeps le⟩
        next different =>
          refine ⟨?_, part.cons bi, fun item beyond member =>
            later item beyond (keeps le item beyond member)⟩
          rw [found, mem_cons, or_iff_right different]
      next notLe =>
        refine ⟨iff_of_false Bool.false_ne_true fun member => ?_,
          Sublist.refl _, fun _ _ member => member⟩
        rcases mem_cons.mp member with same | rest
        · exact notLe same.ge
        · exact notLe (above ai rest).le

theorem intersectionSortedStream2_eq (ordered : a.Pairwise (· < ·))
    (otherOrdered : b.Pairwise (· < ·)) :
    intersectionSortedStream2 a b = a.filter (fun item => item ∈ b) := by
  induction a generalizing b with
  | nil => rfl
  | cons ai a ih =>
      obtain ⟨above, ordered⟩ := pairwise_cons.mp ordered
      obtain ⟨found, part, later⟩ := @nextUpTo_spec _ _ _ _ ai _ otherOrdered
      have rest : intersectionSortedStream2 a (nextUpTo ai b).2 =
          a.filter (fun item => item ∈ b) := by
        rw [ih ordered (otherOrdered.sublist part)]
        refine filter_congr fun item member => decide_eq_decide.mpr ?_
        exact ⟨part.mem, later item (above item member)⟩
      simp only [intersectionSortedStream2, rest, filter_cons, found,
        decide_eq_true_eq]

theorem intersectionSortedStream2_exact (ordered : a.Pairwise (· < ·))
    (otherOrdered : b.Pairwise (· < ·)) :
    (∀ item, item ∈ intersectionSortedStream2 a b ↔ item ∈ a ∧ item ∈ b) ∧
      (intersectionSortedStream2 a b).Pairwise (· < ·) := by
  rw [intersectionSortedStream2_eq ordered otherOrdered]
  exact ⟨fun item => by simp, ordered.filter _⟩

theorem intersectionSortedStream2_exact_pair :
    (∀ item, item ∈ intersectionSortedStream2 [1, 2] [2, 3] ↔
      item ∈ [1, 2] ∧ item ∈ [2, 3]) ∧
      (intersectionSortedStream2 [1, 2] [2, 3]).Pairwise (· < ·) :=
  intersectionSortedStream2_exact (by decide) (by decide)

end

end ArcanaServer.Utils
