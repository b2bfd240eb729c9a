import ArcanaServer.StateRes.IterativeAuthCheck

namespace ArcanaServer.StateRes

open Library List AList

variable {κ Id : Type} [DecidableEq κ] [DecidableEq Id]

/-- Every state map has this value at the key. -/
structure Agreed (stateSets : List (AList (fun _ : κ => Id))) (key : κ)
    (id : Id) : Prop where
  nonempty : stateSets ≠ []
  everywhere : ∀ stateSet ∈ stateSets, stateSet.lookup key = some id

/-- Some but not all state maps have this value at the key. -/
structure Disputed (stateSets : List (AList (fun _ : κ => Id))) (key : κ)
    (id : Id) : Prop where
  somewhere : ∃ stateSet ∈ stateSets, stateSet.lookup key = some id
  notEverywhere : ∃ stateSet ∈ stateSets, stateSet.lookup key ≠ some id

variable {stateSets : List (AList (fun _ : κ => Id))}

omit [DecidableEq Id] in
theorem Agreed.unique {key : κ} {left right : Id}
    (leftAgreed : Agreed stateSets key left)
    (rightAgreed : Agreed stateSets key right) : left = right := by
  obtain ⟨stateSet, member⟩ := exists_mem_of_ne_nil _ leftAgreed.nonempty
  have found := leftAgreed.everywhere stateSet member
  rw [rightAgreed.everywhere stateSet member] at found
  exact (Option.some.inj found).symm

omit [DecidableEq Id] in
theorem Disputed.not_agreed {key : κ} {id other : Id}
    (disputed : Disputed stateSets key id) :
    ¬ Agreed stateSets key other := by
  intro agrees
  obtain ⟨stateSet, member, found⟩ := disputed.somewhere
  obtain ⟨differing, inside, differs⟩ := disputed.notEverywhere
  cases found.symm.trans (agrees.everywhere stateSet member)
  exact differs (agrees.everywhere differing inside)

/-- One value of one key, with the number of its occurrences. -/
structure Occurrence (κ Id : Type) where
  key : κ
  id : Id
  count : Nat

def separateOccurrence (stateSetCount : Nat) (separated : Separated κ Id)
    (occurrence : Occurrence κ Id) : Separated κ Id :=
  separateValue stateSetCount occurrence.key separated
    ⟨occurrence.id, occurrence.count⟩

def visitedOccurrences (keys values : HashOrder)
    (stateSets : List (AList (fun _ : κ => Id))) :
    List (Occurrence κ Id) :=
  (keys.map (occurrencesOf (stateSets.flatMap entries))).entries.flatMap
    (fun entry => (values.map entry.2).entries.map
      (fun occurrence => ⟨entry.1, occurrence.1, occurrence.2⟩))

theorem separate_eq_foldl (keys values : HashOrder)
    (stateSets : List (AList (fun _ : κ => Id))) :
    separate keys values stateSets =
      (visitedOccurrences keys values stateSets).foldl
        (separateOccurrence stateSets.length)
        { unconflicted := fun _ => none, conflicted := ∅ } := by
  unfold separate visitedOccurrences
  rw [foldl_flatMap]
  simp only [foldl_map]
  rfl

def holders (stateSets : List (AList (fun _ : κ => Id))) (key : κ) (id : Id) :
    Nat :=
  stateSets.countP (fun stateSet => stateSet.lookup key = some id)

theorem count_values (stateSets : List (AList (fun _ : κ => Id))) (key : κ)
    (id : Id) :
    (stateSets.filterMap (fun stateSet => stateSet.lookup key)).count id =
      holders stateSets key id := by
  rw [count_filterMap, holders]
  congr 1
  funext stateSet
  cases stateSet.lookup key with
  | none => simp
  | some value => simp [Bool.beq_eq_decide_eq]

theorem mem_visitedOccurrences {keys values : HashOrder}
    {occurrence : Occurrence κ Id} :
    occurrence ∈ visitedOccurrences keys values stateSets ↔
      (∃ stateSet ∈ stateSets,
        stateSet.lookup occurrence.key = some occurrence.id) ∧
      occurrence.count = holders stateSets occurrence.key occurrence.id := by
  unfold visitedOccurrences
  simp only [mem_flatMap, mem_map]
  constructor
  · rintro ⟨⟨key, tally⟩, entryMember, ⟨id, count⟩, valueMember, rfl⟩
    have listed := (keys.perm _).mem_iff.mp entryMember
    have counted := (values.perm _).mem_iff.mp valueMember
    obtain ⟨_, tallyEq⟩ := mem_entries_occurrencesOf.mp listed
    have tallyEq' : tally = _ := tallyEq
    rw [valuesAt_flatMap] at tallyEq'
    simp only [tallyEq'] at counted
    obtain ⟨member, countEq⟩ := Tally.mem_entries_of.mp counted
    rw [count_values] at countEq
    exact ⟨mem_filterMap.mp member, countEq⟩
  · rintro ⟨held, countEq⟩
    obtain ⟨key, id, count⟩ := occurrence
    have member : id ∈ stateSets.filterMap
        (fun stateSet => stateSet.lookup key) := mem_filterMap.mpr held
    refine ⟨⟨key, Tally.of (stateSets.filterMap
      (fun stateSet => stateSet.lookup key))⟩, ?_, ⟨id, count⟩, ?_, rfl⟩
    · refine (keys.perm _).mem_iff.mpr (mem_entries_occurrencesOf.mpr ?_)
      rw [valuesAt_flatMap]
      exact ⟨ne_nil_of_mem member, rfl⟩
    · refine (values.perm _).mem_iff.mpr (Tally.mem_entries_of.mpr ?_)
      rw [count_values]
      exact ⟨member, countEq⟩

theorem holders_eq_length_iff {key : κ} {id : Id} :
    holders stateSets key id = stateSets.length ↔
      ∀ stateSet ∈ stateSets, stateSet.lookup key = some id := by
  simp [holders, countP_eq_length]

/-- The events of a key that not all state maps have. -/
def disputedIds (stateSetCount : Nat) (visited : List (Occurrence κ Id))
    (key : κ) : List Id :=
  (visited.filter fun occurrence =>
    occurrence.key = key ∧ occurrence.count ≠ stateSetCount).map Occurrence.id

structure SeparatedInv (stateSetCount : Nat)
    (visited : List (Occurrence κ Id)) (separated : Separated κ Id) :
    Prop where
  common : ∀ key, separated.unconflicted key =
    ((visited.filter fun occurrence => occurrence.key = key ∧
      occurrence.count = stateSetCount).getLast?).map Occurrence.id
  disputed : ∀ key, (separated.conflicted.lookup key).getD [] =
    disputedIds stateSetCount visited key
  nonempty : ∀ key, separated.conflicted.lookup key ≠ some []

omit [DecidableEq Id] in
theorem SeparatedInv.step {stateSetCount : Nat}
    {visited : List (Occurrence κ Id)} {separated : Separated κ Id}
    (holds : SeparatedInv stateSetCount visited separated)
    (next : Occurrence κ Id) :
    SeparatedInv stateSetCount (visited ++ [next])
      (separateOccurrence stateSetCount separated next) := by
  have disputed := holds.disputed
  unfold disputedIds at disputed
  unfold separateOccurrence separateValue
  by_cases whole : next.count = stateSetCount
  · refine ⟨fun key => ?_, fun key => ?_, ?_⟩
    · by_cases same : key = next.key
      · simp [whole, same]
      · simp [whole, same, Ne.symm same, holds.common]
    · simp [whole, disputed, disputedIds]
    · simpa [whole] using holds.nonempty
  · refine ⟨fun key => ?_, fun key => ?_, fun key => ?_⟩
    · simp [whole, holds.common]
    · by_cases same : key = next.key
      · subst same
        rw [if_neg whole, lookup_insert]
        simp [whole, disputed, disputedIds]
      · simp [whole, same, Ne.symm same, disputed, disputedIds]
    · by_cases same : key = next.key
      · subst same
        rw [if_neg whole, lookup_insert]
        simp
      · simpa [whole, same] using holds.nonempty key

theorem separate_inv (keys values : HashOrder)
    (stateSets : List (AList (fun _ : κ => Id))) :
    SeparatedInv stateSets.length (visitedOccurrences keys values stateSets)
      (separate keys values stateSets) := by
  rw [separate_eq_foldl]
  induction visitedOccurrences keys values stateSets
      using reverseRecOn with
  | nil => exact ⟨by simp, by simp [disputedIds], by simp⟩
  | append_singleton visited next ih =>
      rw [foldl_append]
      exact ih.step next

section

variable {keys values : HashOrder} {stateSets : List (AList (fun _ : κ => Id))}
  {key : κ}

theorem separate_unconflicted {id : Id} :
    (separate keys values stateSets).unconflicted key = some id ↔
      Agreed stateSets key id := by
  have common := (separate_inv keys values stateSets).common key
  have agreed : ∀ id, (separate keys values stateSets).unconflicted key =
      some id → Agreed stateSets key id := by
    intro id row
    rw [common] at row
    obtain ⟨occurrence, last, rfl⟩ := Option.map_eq_some_iff.mp row
    obtain ⟨visited, chosen⟩ := mem_filter.mp (mem_of_getLast? last)
    obtain ⟨rfl, whole⟩ := of_decide_eq_true chosen
    obtain ⟨⟨stateSet, member, _⟩, count⟩ := mem_visitedOccurrences.mp visited
    exact ⟨ne_nil_of_mem member,
      holders_eq_length_iff.mp (count.symm.trans whole)⟩
  refine ⟨agreed id, fun agrees => ?_⟩
  obtain ⟨stateSet, member⟩ := exists_mem_of_ne_nil _ agrees.nonempty
  have visited : ⟨key, id, stateSets.length⟩ ∈
      visitedOccurrences keys values stateSets :=
    mem_visitedOccurrences.mpr
      ⟨⟨stateSet, member, agrees.everywhere stateSet member⟩,
        (holders_eq_length_iff.mpr agrees.everywhere).symm⟩
  have found : ((separate keys values stateSets).unconflicted key).isSome := by
    rw [common, Option.isSome_map, getLast?_isSome]
    exact ne_nil_of_mem (mem_filter.mpr ⟨visited, by simp⟩)
  obtain ⟨other, row⟩ := Option.isSome_iff_exists.mp found
  rw [row, (agreed other row).unique agrees]

theorem separate_conflicted {id : Id} :
    (∃ ids, (separate keys values stateSets).conflicted.lookup key = some ids ∧
        id ∈ ids) ↔ Disputed stateSets key id := by
  have listed : (∃ ids, (separate keys values stateSets).conflicted.lookup
      key = some ids ∧ id ∈ ids) ↔ id ∈ disputedIds stateSets.length
        (visitedOccurrences keys values stateSets) key := by
    rw [← (separate_inv keys values stateSets).disputed]
    cases (separate keys values stateSets).conflicted.lookup key <;> simp
  rw [listed]
  simp only [disputedIds, mem_map, mem_filter, mem_visitedOccurrences,
    decide_eq_true_eq]
  constructor
  · rintro ⟨occurrence, ⟨⟨held, count⟩, rfl, differs⟩, rfl⟩
    refine ⟨held, ?_⟩
    by_contra everywhere
    push Not at everywhere
    exact differs (count.trans (holders_eq_length_iff.mpr everywhere))
  · rintro ⟨held, stateSet, member, differs⟩
    refine ⟨⟨key, id, holders stateSets key id⟩, ⟨⟨held, rfl⟩, rfl, fun everywhere => ?_⟩, rfl⟩
    exact differs (holders_eq_length_iff.mp everywhere stateSet member)

theorem separate_conflicted_ne_nil {ids : List Id}
    (row : (separate keys values stateSets).conflicted.lookup key = some ids) :
    ids ≠ [] := by
  rintro rfl
  exact (separate_inv keys values stateSets).nonempty key row

theorem separate_disputed {ids : List Id}
    (row : (separate keys values stateSets).conflicted.lookup key = some ids) :
    ∃ id, Disputed stateSets key id := by
  obtain ⟨id, inside⟩ := exists_mem_of_ne_nil _ (separate_conflicted_ne_nil row)
  exact ⟨id, separate_conflicted.mp ⟨ids, row, inside⟩⟩

/-- A held event that is not agreed is listed as conflicted. -/
theorem separate_listed {id : Id}
    (held : ∃ stateSet ∈ stateSets, stateSet.lookup key = some id)
    (notAgreed : ¬ Agreed stateSets key id) :
    ∃ ids, (separate keys values stateSets).conflicted.lookup key = some ids ∧
      id ∈ ids := by
  refine separate_conflicted.mpr ⟨held, ?_⟩
  by_contra everywhere
  push Not at everywhere
  obtain ⟨stateSet, member, _⟩ := held
  exact notAgreed ⟨ne_nil_of_mem member, everywhere⟩

theorem visitedOccurrences_nodup (keys values : HashOrder)
    (stateSets : List (AList (fun _ : κ => Id))) :
    (visitedOccurrences keys values stateSets).Nodup := by
  unfold visitedOccurrences
  rw [nodup_flatMap]
  refine ⟨fun entry _ => ?_, ?_⟩
  · refine Nodup.map_on ?_ ((values.map entry.2).nodupKeys.nodup)
    rintro ⟨id, count⟩ _ ⟨other, otherCount⟩ _ same
    cases same
    rfl
  · refine Pairwise.imp ?_ (nodupKeys_iff_pairwise.mp (keys.map
      (occurrencesOf (stateSets.flatMap entries))).nodupKeys)
    intro entry other differs occurrence left right
    obtain ⟨_, _, rfl⟩ := mem_map.mp left
    obtain ⟨_, _, same⟩ := mem_map.mp right
    exact differs (congrArg Occurrence.key same).symm

/-- No event of a key is listed twice. -/
theorem separate_nodup {ids : List Id}
    (row : (separate keys values stateSets).conflicted.lookup key = some ids) :
    ids.Nodup := by
  have listed := (separate_inv keys values stateSets).disputed key
  rw [row, Option.getD_some] at listed
  rw [listed]
  refine Nodup.map_on ?_ ((visitedOccurrences_nodup keys values stateSets).filter _)
  intro left leftListed right rightListed same
  obtain ⟨leftVisited, leftKey⟩ := mem_filter.mp leftListed
  obtain ⟨rightVisited, rightKey⟩ := mem_filter.mp rightListed
  have leftCount := (mem_visitedOccurrences.mp leftVisited).2
  have rightCount := (mem_visitedOccurrences.mp rightVisited).2
  have keysEq : left.key = right.key :=
    (of_decide_eq_true leftKey).1.trans (of_decide_eq_true rightKey).1.symm
  rw [keysEq, same, ← rightCount] at leftCount
  cases left
  cases right
  simp_all

/-- The same two parts, the events of a conflicted key in any order. -/
structure SameParts (left right : Separated κ Id) : Prop where
  unconflicted : left.unconflicted = right.unconflicted
  conflicted : ∀ key, Option.Rel List.Perm (left.conflicted.lookup key)
    (right.conflicted.lookup key)

/-- What the keys of some state maps are separated into. -/
structure Partitioned (stateSets : List (AList (fun _ : κ => Id)))
    (separated : Separated κ Id) : Prop where
  unconflicted : ∀ key id, separated.unconflicted key = some id ↔
    stateSets ≠ [] ∧ ∀ stateSet ∈ stateSets, stateSet.lookup key = some id
  conflicted : ∀ key, key ∈ separated.conflicted ↔
    separated.unconflicted key = none ∧ ∃ stateSet ∈ stateSets, key ∈ stateSet
  events : ∀ key ids, separated.conflicted.lookup key = some ids →
    ids.Nodup ∧ ∀ id, id ∈ ids ↔
      ∃ stateSet ∈ stateSets, stateSet.lookup key = some id

theorem separate_partitioned (keys values : HashOrder)
    (stateSets : List (AList (fun _ : κ => Id))) :
    Partitioned stateSets (separate keys values stateSets) := by
  refine ⟨fun key id => ?_, fun key => ⟨fun listed => ?_, ?_⟩,
    fun key ids row => ⟨separate_nodup row, fun id => ?_⟩⟩
  · rw [separate_unconflicted]
    exact ⟨fun agrees => ⟨agrees.nonempty, agrees.everywhere⟩,
      fun agrees => ⟨agrees.1, agrees.2⟩⟩
  · obtain ⟨ids, row⟩ := Option.isSome_iff_exists.mp
      (lookup_isSome.mpr listed)
    obtain ⟨id, disputed⟩ := separate_disputed row
    obtain ⟨stateSet, member, found⟩ := disputed.somewhere
    refine ⟨Option.eq_none_iff_forall_ne_some.mpr fun other common => ?_,
      stateSet, member, lookup_isSome.mp (by simp [found])⟩
    exact disputed.not_agreed (separate_unconflicted.mp common)
  · rintro ⟨absent, stateSet, member, present⟩
    obtain ⟨id, found⟩ := Option.isSome_iff_exists.mp
      (lookup_isSome.mpr present)
    have notAgreed : ¬ Agreed stateSets key id := by
      intro agrees
      cases absent.symm.trans (separate_unconflicted.mpr agrees)
    obtain ⟨ids, row, _⟩ := separate_listed ⟨stateSet, member, found⟩ notAgreed
    exact lookup_isSome.mp (Option.isSome_iff_exists.mpr ⟨ids, row⟩)
  · refine ⟨fun inside =>
      (separate_conflicted.mp ⟨ids, row, inside⟩).somewhere, fun held => ?_⟩
    obtain ⟨_, disputed⟩ := separate_disputed row
    obtain ⟨others, again, inside⟩ := separate_listed held disputed.not_agreed
    cases row.symm.trans again
    exact inside

omit [DecidableEq Id] in
theorem Partitioned.sameParts {others : List (AList (fun _ : κ => Id))}
    {left right : Separated κ Id} (same : stateSets.Perm others)
    (leftParts : Partitioned stateSets left)
    (rightParts : Partitioned others right) : SameParts left right := by
  have common : left.unconflicted = right.unconflicted := by
    funext key
    refine Option.ext fun id => ?_
    rw [leftParts.unconflicted, rightParts.unconflicted]
    have empty : stateSets = [] ↔ others = [] := by
      rw [← length_eq_zero_iff, same.length_eq, length_eq_zero_iff]
    simp only [ne_eq, same.mem_iff, empty]
  refine ⟨common, fun key => ?_⟩
  have listed : key ∈ left.conflicted ↔ key ∈ right.conflicted := by
    rw [leftParts.conflicted, rightParts.conflicted, common]
    simp only [same.mem_iff]
  rw [← lookup_isSome, ← lookup_isSome] at listed
  cases leftRow : left.conflicted.lookup key with
  | none =>
      cases rightRow : right.conflicted.lookup key with
      | none => exact .none
      | some ids =>
          rw [leftRow, rightRow] at listed
          cases listed.mpr rfl
  | some ids =>
      rw [leftRow] at listed
      obtain ⟨otherIds, rightRow⟩ := Option.isSome_iff_exists.mp (listed.mp rfl)
      rw [rightRow]
      have leftIds := leftParts.events key ids leftRow
      have rightIds := rightParts.events key otherIds rightRow
      refine .some ((perm_ext_iff_of_nodup leftIds.1 rightIds.1).mpr fun id => ?_)
      rw [leftIds.2, rightIds.2]
      simp only [same.mem_iff]

/-- The maps may come in any order, and their keys and events be met in any. -/
theorem separate_partitions (keys values : HashOrder)
    (stateSets : List (AList (fun _ : κ => Id))) :
    Partitioned stateSets (separate keys values stateSets) ∧
      ∀ (others : List (AList (fun _ : κ => Id)))
        (otherKeys otherValues : HashOrder), stateSets.Perm others →
          SameParts (separate keys values stateSets)
            (separate otherKeys otherValues others) :=
  ⟨separate_partitioned keys values stateSets, fun others _ _ same =>
    (separate_partitioned keys values stateSets).sameParts same
      (separate_partitioned _ _ others)⟩

def threeMaps : List (AList (fun _ : Nat => Nat)) :=
  [insert 1 5 (insert 0 9 ∅), insert 1 6 (insert 0 9 ∅),
    insert 2 7 (insert 1 5 (insert 0 9 ∅))]

theorem threeMaps_partitions :
    Partitioned threeMaps (separate .inserted .inserted threeMaps) ∧
      SameParts (separate .inserted .inserted threeMaps)
        (separate .inserted .inserted threeMaps.reverse) :=
  ⟨(separate_partitions ..).1,
    (separate_partitions ..).2 _ _ _ (reverse_perm threeMaps).symm⟩

/-- Every state map of an empty family holds every event. -/
theorem separate_no_maps : ¬ ((separate .inserted .inserted
        ([] : List (AList (fun _ : Nat => Nat)))).unconflicted 0 = some 0 ↔
      ∀ stateSet ∈ ([] : List (AList (fun _ : Nat => Nat))),
        stateSet.lookup 0 = some 0) := by
  intro claimed
  cases claimed.mpr (by simp)

end

structure ChainsDiffer (authChainSets : List (IdSet Id)) (id : Id) : Prop where
  somewhere : ∃ chain ∈ authChainSets, id ∈ chain.val
  notEverywhere : ∃ chain ∈ authChainSets, id ∉ chain.val

theorem count_chains (authChainSets : List (IdSet Id)) (id : Id) :
    (authChainSets.flatMap Subtype.val).count id =
      authChainSets.countP (fun chain => id ∈ chain.val) := by
  induction authChainSets with
  | nil => rfl
  | cons chain rest ih =>
      rw [flatMap_cons, count_append, ih, countP_cons]
      rcases Decidable.em (id ∈ chain.val) with member | absent
      · rw [count_eq_one_of_mem chain.property member]
        simp [member, Nat.add_comm]
      · rw [count_eq_zero_of_not_mem absent]
        simp [absent]

theorem mem_getAuthChainDiff {order : HashOrder}
    {authChainSets : List (IdSet Id)} {id : Id} :
    id ∈ getAuthChainDiff order authChainSets ↔
      ChainsDiffer authChainSets id := by
  have counted : id ∈ getAuthChainDiff order authChainSets ↔
      id ∈ authChainSets.flatMap Subtype.val ∧
        authChainSets.countP (fun chain => id ∈ chain.val) <
          authChainSets.length := by
    unfold getAuthChainDiff
    rw [mem_filterMap, ← count_chains]
    constructor
    · rintro ⟨⟨other, count⟩, member, chosen⟩
      have listed := (order.perm _).mem_iff.mp member
      obtain ⟨inside, countEq⟩ := Tally.mem_entries_of.mp listed
      split at chosen
      next below =>
        cases chosen
        exact ⟨inside, countEq ▸ below⟩
      · cases chosen
    · rintro ⟨inside, below⟩
      refine ⟨⟨id, _⟩, (order.perm _).mem_iff.mpr
        (Tally.mem_entries_of.mpr ⟨inside, rfl⟩), ?_⟩
      exact if_pos below
  have everywhere : authChainSets.countP (fun chain => id ∈ chain.val) <
      authChainSets.length ↔ ∃ chain ∈ authChainSets, id ∉ chain.val := by
    have bound : authChainSets.countP (fun chain => id ∈ chain.val) ≤
        authChainSets.length := countP_le_length
    rw [bound.lt_iff_ne, ne_eq, countP_eq_length]
    simp
  rw [counted, everywhere, mem_flatMap]
  exact ⟨fun ⟨left, right⟩ => ⟨left, right⟩, fun ⟨left, right⟩ => ⟨left, right⟩⟩

end ArcanaServer.StateRes
