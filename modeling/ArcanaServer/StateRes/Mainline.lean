import ArcanaServer.Library.Descent
import ArcanaServer.StateRes.IterativeAuthCheck

namespace ArcanaServer.StateRes

open Library ArcanaServer.Matrix List

variable {store : EventStore}

theorem orderEntry_eq_some {mainlineMap : MainlineMap} {rounds : Nat}
    {event : Pdu} {id : EventId} {key : OrderKey}
    (result : orderEntry store mainlineMap rounds event =
      .ok (some (id, key))) :
    id = event.eventId ∧ (ofLex (ofLex key).2).2 = event.eventId := by
  unfold orderEntry at result
  split at result
  · simp only [Except.ok.injEq, Option.some.injEq, Prod.mk.injEq] at result
    obtain ⟨rfl, rfl⟩ := result
    exact ⟨rfl, rfl⟩
  · simp at result
  · cases result

variable {resolvedPowerLevel : Option EventId}

variable {orders : MainlineOrders} {rounds : Nat} {toSort sorted : List EventId}

theorem mainlineSort_mem
    (result : mainlineSort store orders rounds toSort resolvedPowerLevel =
      .ok sorted) : ∀ id ∈ sorted, id ∈ toSort := by
  intro id member
  unfold mainlineSort at result
  split at result
  · cases result
    cases member
  · obtain ⟨mainline, _, rest⟩ := bind_eq_ok result
    obtain ⟨entries, placed, final⟩ := bind_eq_ok rest
    cases final
    obtain ⟨⟨other, key⟩, listed, rfl⟩ := mem_map.mp member
    have visited := (perm_insertionSort _ _).mem_iff.mp listed
    have collected := (orders.keys.perm _).mem_iff.mp visited
    have found := mem_of_lookup_collect (AList.mem_lookup_iff.mpr collected)
    obtain ⟨entry, inside, same⟩ := mem_filterMap.mp found
    obtain ⟨event, fetched, placedAs⟩ := (mapM_matches placed).1 entry inside
    have entryEq : entry = some (other, key) := same
    rw [entryEq] at placedAs
    rw [(orderEntry_eq_some placedAs).1]
    obtain ⟨source, sourceListed, sourceFetched⟩ := mem_filterMap.mp
      (Completion.mem_bufferUnordered.mp fetched)
    rw [store.named sourceFetched]
    exact Completion.mem_bufferUnordered.mp sourceListed

theorem nodup_insertionSort_keys (keys : HashOrder)
    (places : List (EventId × OrderKey)) :
    (((keys.map (collect places)).entries.insertionSort
      (fun left right => left.2 ≤ right.2)).map Sigma.fst).Nodup :=
  ((perm_insertionSort _ _).map Sigma.fst).nodup_iff.mpr
    (keys.map (collect places)).nodupKeys

theorem mainlineSort_nodup
    (result : mainlineSort store orders rounds toSort resolvedPowerLevel =
      .ok sorted) : sorted.Nodup := by
  unfold mainlineSort at result
  split at result
  · cases result
    exact nodup_nil
  · obtain ⟨mainline, _, rest⟩ := bind_eq_ok result
    obtain ⟨entries, _, final⟩ := bind_eq_ok rest
    cases final
    exact nodup_insertionSort_keys orders.keys (entries.filterMap id)

/-! The way back through the power levels events comes to an end, however many
rounds there are to spare. -/

theorem findPowerLevels_eq_some {ids : List EventId} {event : Pdu}
    (result : findPowerLevels store ids = .ok (some event)) :
    event.eventId ∈ ids ∧ store.fetch event.eventId = some event := by
  induction ids with
  | nil => cases result
  | cons id rest ih =>
      obtain ⟨first, fetched, chosen⟩ := bind_eq_ok result
      have found := fetchOrNotFound_eq_ok fetched
      split at chosen
      · cases chosen
        rw [store.named found]
        exact ⟨by simp, found⟩
      · obtain ⟨listed, later⟩ := ih chosen
        exact ⟨mem_cons_of_mem _ listed, later⟩

section

variable {weight : EventId → Nat}

section

variable (weighs : Weighs (fun id => (store.authEventsOf id).getD []) weight)
include weighs

theorem weight_findPowerLevels {id : EventId} {event next : Pdu}
    (fetched : store.fetch id = some event)
    (found : findPowerLevels store event.authEvents = .ok (some next)) :
    weight next.eventId < weight id := by
  refine weighs.descends ?_
  simpa [EventStore.authEventsOf, fetched] using
    (findPowerLevels_eq_some found).1

variable {otherRounds : Nat}

theorem mainlineFrom_agree {rounds : Nat} {start : Option EventId}
    (enough : ∀ id ∈ start, weight id < rounds ∧ weight id < otherRounds) :
    Agree Stop.Final (mainlineFrom store rounds start)
      (mainlineFrom store otherRounds start) := by
  induction rounds generalizing otherRounds start with
  | zero =>
      cases start with
      | none =>
          simp only [mainlineFrom]
          exact .ok []
      | some id => exact absurd (enough id rfl).1 (Nat.not_lt_zero _)
  | succ rounds ih =>
      cases start with
      | none =>
          simp only [mainlineFrom]
          exact .ok []
      | some id =>
          obtain ⟨here, there⟩ := enough id rfl
          cases otherRounds with
          | zero => exact absurd there (Nat.not_lt_zero _)
          | succ otherRounds =>
              refine .bind (bounded_agree_self _) (fun event fetched _ => ?_)
              refine .bind (bounded_agree_self _) (fun next found _ => ?_)
              refine .bind (ih ?_) (fun rest _ _ => .ok _)
              intro nextId same
              obtain ⟨power, powerFound, rfl⟩ := Option.map_eq_some_iff.mp same
              rw [powerFound] at found
              have lighter := weight_findPowerLevels weighs
                (fetchOrNotFound_eq_ok (bounded_eq_ok.mp fetched))
                (bounded_eq_ok.mp found)
              omega

theorem getMainlineDepth_agree {mainlineMap : MainlineMap} {rounds : Nat}
    {event : Option Pdu}
    (stored : ∀ pdu ∈ event, store.fetch pdu.eventId = some pdu)
    (enough : ∀ pdu ∈ event, weight pdu.eventId < rounds ∧
      weight pdu.eventId < otherRounds) :
    Agree Stop.Final (getMainlineDepth store mainlineMap rounds event)
      (getMainlineDepth store mainlineMap otherRounds event) := by
  induction rounds generalizing otherRounds event with
  | zero =>
      cases event with
      | none =>
          simp only [getMainlineDepth]
          exact .ok 0
      | some pdu => exact absurd (enough pdu rfl).1 (Nat.not_lt_zero _)
  | succ rounds ih =>
      cases event with
      | none =>
          simp only [getMainlineDepth]
          exact .ok 0
      | some pdu =>
          obtain ⟨here, there⟩ := enough pdu rfl
          cases otherRounds with
          | zero => exact absurd there (Nat.not_lt_zero _)
          | succ otherRounds =>
              unfold getMainlineDepth
              cases mainlineMap.lookup pdu.eventId with
              | some depth => exact .ok depth
              | none =>
                  refine .bind (bounded_agree_self _) (fun next found _ => ?_)
                  refine ih ?_ ?_
                  · rintro power rfl
                    exact (findPowerLevels_eq_some (bounded_eq_ok.mp found)).2
                  · rintro power rfl
                    have lighter := weight_findPowerLevels weighs
                      (stored pdu rfl) (bounded_eq_ok.mp found)
                    omega

theorem orderEntry_finishes {mainlineMap : MainlineMap} {rounds : Nat}
    {event : Pdu} (stored : store.fetch event.eventId = some event)
    (enough : weight event.eventId < rounds)
    (otherEnough : weight event.eventId < otherRounds) :
    ∃ place, orderEntry store mainlineMap rounds event = .ok place ∧
      orderEntry store mainlineMap otherRounds event = .ok place := by
  have agree : Agree Stop.Final
      (getMainlineDepth store mainlineMap rounds (some event))
      (getMainlineDepth store mainlineMap otherRounds (some event)) :=
    getMainlineDepth_agree weighs (by rintro pdu ⟨⟩; exact stored)
      (by rintro pdu ⟨⟩; exact ⟨enough, otherEnough⟩)
  unfold orderEntry
  generalize getMainlineDepth store mainlineMap rounds (some event) = left
    at agree ⊢
  generalize getMainlineDepth store mainlineMap otherRounds (some event) =
    right at agree ⊢
  cases agree with
  | ok depth => exact ⟨_, rfl, rfl⟩
  | @error leftStop rightStop leftFinal rightFinal =>
      cases leftStop with
      | unfinished => exact absurd leftFinal id
      | failed _ =>
          cases rightStop with
          | unfinished => exact absurd rightFinal id
          | failed _ => exact ⟨none, rfl, rfl⟩

end

end

def pdusToSort (store : EventStore) (orders : MainlineOrders)
    (toSort : List EventId) : List Pdu :=
  orders.depths.bufferUnordered
    ((orders.fetches.bufferUnordered toSort).filterMap store.fetch)

def sortByPlace (keys : HashOrder) (places : List (EventId × OrderKey)) :
    List EventId :=
  ((keys.map (collect places)).entries.insertionSort
    (fun left right => left.2 ≤ right.2)).map Sigma.fst

theorem mainlineSort_eq (orders : MainlineOrders) (rounds : Nat)
    (toSort : List EventId) (resolvedPowerLevel : Option EventId) :
    mainlineSort store orders rounds toSort resolvedPowerLevel =
      if toSort.isEmpty then .ok []
      else do
        let mainline ← mainlineFrom store rounds resolvedPowerLevel
        let entries ← (pdusToSort store orders toSort).mapM
          (orderEntry store (mainlineMap mainline) rounds)
        return sortByPlace orders.keys (entries.filterMap id) :=
  rfl

variable {orders : MainlineOrders} {toSort : List EventId}

theorem pdusToSort_perm {otherOrders : MainlineOrders}
    {otherToSort : List EventId} (perm : toSort.Perm otherToSort) :
    (pdusToSort store orders toSort).Perm
      (pdusToSort store otherOrders otherToSort) := by
  have fetched := (orders.fetches.bufferUnordered_perm toSort).trans
    (perm.trans (otherOrders.fetches.bufferUnordered_perm otherToSort).symm)
  exact (orders.depths.bufferUnordered_perm _).trans
    ((fetched.filterMap store.fetch).trans
      (otherOrders.depths.bufferUnordered_perm _).symm)

theorem mem_pdusToSort {event : Pdu}
    (member : event ∈ pdusToSort store orders toSort) :
    event.eventId ∈ toSort ∧ store.fetch event.eventId = some event := by
  obtain ⟨id, listed, found⟩ := mem_filterMap.mp
    (Completion.mem_bufferUnordered.mp member)
  rw [store.named found]
  exact ⟨Completion.mem_bufferUnordered.mp listed, found⟩

instance : Std.Total (fun left right : (_ : EventId) × OrderKey =>
    left.2 ≤ right.2) := ⟨fun left right => le_total left.2 right.2⟩

instance : IsTrans ((_ : EventId) × OrderKey) (fun left right =>
    left.2 ≤ right.2) := ⟨fun _ _ _ => le_trans⟩

theorem sortByPlace_eq {keys otherKeys : HashOrder}
    {places others : List (EventId × OrderKey)} (perm : places.Perm others)
    (named : ∀ place ∈ places, (ofLex (ofLex place.2).2).2 = place.1)
    (only : ∀ id left right, (id, left) ∈ places → (id, right) ∈ places →
      left = right) :
    sortByPlace keys places = sortByPlace otherKeys others := by
  have entries : (keys.map (collect places)).entries.Perm
      (otherKeys.map (collect others)).entries :=
    (keys.perm _).trans ((collect_entries_perm (fun _ => perm.mem_iff)
      only).trans (otherKeys.perm _).symm)
  have listed : ∀ entry ∈ (keys.map (collect places)).entries,
      (entry.1, entry.2) ∈ places := fun entry member =>
    mem_of_lookup_collect (AList.mem_lookup_iff.mpr
      ((keys.perm _).mem_iff.mp member))
  unfold sortByPlace
  rw [insertionSort_eq_of_perm entries]
  rintro ⟨one, place⟩ oneListed ⟨other, otherPlace⟩ otherListed below above
  have same : place = otherPlace := le_antisymm below above
  subst same
  have sameId : one = other :=
    (named _ (listed _ oneListed)).symm.trans (named _ (listed _ otherListed))
  rw [sameId]

theorem sortByPlace_placed {keys otherKeys : HashOrder}
    {place : Pdu → Option (EventId × OrderKey)} {pdus others : List Pdu}
    (perm : pdus.Perm others)
    (stored : ∀ event ∈ pdus, store.fetch event.eventId = some event)
    (named : ∀ event ∈ pdus, ∀ eventId key, place event = some (eventId, key) →
      eventId = event.eventId ∧ (ofLex (ofLex key).2).2 = event.eventId) :
    sortByPlace keys ((pdus.map place).filterMap id) =
      sortByPlace otherKeys ((others.map place).filterMap id) := by
  have source : ∀ eventId key, (eventId, key) ∈ (pdus.map place).filterMap id →
      ∃ event, store.fetch eventId = some event ∧
        place event = some (eventId, key) ∧
        (ofLex (ofLex key).2).2 = eventId := by
    intro eventId key listed
    obtain ⟨entry, member, same⟩ := mem_filterMap.mp listed
    obtain ⟨event, inside, rfl⟩ := mem_map.mp member
    obtain ⟨rfl, keyId⟩ := named event inside eventId key same
    exact ⟨event, stored event inside, same, keyId⟩
  refine sortByPlace_eq ((perm.map place).filterMap id) ?_ ?_
  · rintro ⟨eventId, key⟩ listed
    obtain ⟨_, _, _, keyId⟩ := source eventId key listed
    exact keyId
  · intro eventId left right leftListed rightListed
    obtain ⟨event, fetched, leftPlace, _⟩ := source eventId left leftListed
    obtain ⟨same, again, rightPlace, _⟩ := source eventId right rightListed
    rw [fetched] at again
    cases again
    rw [leftPlace] at rightPlace
    cases rightPlace
    rfl

theorem mainlineSort_agree {weight : EventId → Nat}
    (weighs : Weighs (fun id => (store.authEventsOf id).getD []) weight)
    {otherOrders : MainlineOrders} {rounds otherRounds : Nat}
    {otherToSort : List EventId} {resolvedPowerLevel : Option EventId}
    (perm : toSort.Perm otherToSort)
    (enough : ∀ id ∈ toSort, weight id < rounds ∧ weight id < otherRounds)
    (levelEnough : ∀ id ∈ resolvedPowerLevel,
      weight id < rounds ∧ weight id < otherRounds) :
    Agree Stop.Final
      (mainlineSort store orders rounds toSort resolvedPowerLevel)
      (mainlineSort store otherOrders otherRounds otherToSort
        resolvedPowerLevel) := by
  rw [mainlineSort_eq, mainlineSort_eq, ← perm.isEmpty_eq]
  split
  · exact .ok []
  refine .bind (mainlineFrom_agree weighs levelEnough) (fun mainline _ _ => ?_)
  have samePdus : (pdusToSort store orders toSort).Perm
      (pdusToSort store otherOrders otherToSort) := pdusToSort_perm perm
  have placed : ∀ event, ∃ place, event ∈ pdusToSort store orders toSort →
      orderEntry store (mainlineMap mainline) rounds event = .ok place ∧
        orderEntry store (mainlineMap mainline) otherRounds event =
          .ok place := by
    intro event
    rcases Classical.em (event ∈ pdusToSort store orders toSort) with
      inside | outside
    · obtain ⟨listed, found⟩ := mem_pdusToSort inside
      obtain ⟨here, there⟩ := enough event.eventId listed
      obtain ⟨place, both⟩ := orderEntry_finishes weighs found here there
      exact ⟨place, fun _ => both⟩
    · exact ⟨none, fun inside => absurd inside outside⟩
  choose place places using placed
  rw [mapM_eq_ok_map (fun event member => (places event member).1),
    mapM_eq_ok_map (fun event member =>
      (places event (samePdus.mem_iff.mpr member)).2)]
  have sorted : sortByPlace orders.keys
      (((pdusToSort store orders toSort).map place).filterMap id) =
        sortByPlace otherOrders.keys
          (((pdusToSort store otherOrders otherToSort).map place).filterMap
            id) :=
    sortByPlace_placed samePdus (fun event member => (mem_pdusToSort member).2)
      (fun event member eventId key same =>
        orderEntry_eq_some (same ▸ (places event member).1))
  change Agree Stop.Final (.ok _) (.ok _)
  rw [sorted]
  exact .ok _

end ArcanaServer.StateRes
