import ArcanaServer.StateRes.Mainline
import Mathlib.Data.List.Nodup

namespace ArcanaServer.StateRes

open Library ArcanaServer.Matrix List

variable {store : EventStore}

/-- The first power levels event among the auth events, all of which can be
fetched as far as it. -/
def PowerParent (store : EventStore) (event : Pdu) (parent : Option Pdu) :
    Prop :=
  findPowerLevels store event.authEvents = .ok parent

/-- The power levels events behind a given one, the latest first. -/
inductive Mainline (store : EventStore) : Option EventId → List EventId → Prop
  | nil : Mainline store none []
  | cons {id : EventId} {event : Pdu} {parent : Option Pdu}
      {rest : List EventId} (fetched : store.fetch id = some event)
      (follows : PowerParent store event parent)
      (tail : Mainline store (parent.map Pdu.eventId) rest) :
      Mainline store (some id) (id :: rest)

inductive Closest (store : EventStore) (mainline : List EventId) :
    Pdu → Option EventId → Prop
  | here {event : Pdu} (member : event.eventId ∈ mainline) :
      Closest store mainline event (some event.eventId)
  | up {event parent : Pdu} {closest : Option EventId}
      (outside : event.eventId ∉ mainline)
      (follows : PowerParent store event (some parent))
      (further : Closest store mainline parent closest) :
      Closest store mainline event closest
  | beyond {event : Pdu} (outside : event.eventId ∉ mainline)
      (follows : PowerParent store event none) :
      Closest store mainline event none

/-- Older events of the mainline come first, and the events without one before
all others. -/
def position (mainline : List EventId) : Option EventId → Nat
  | none => 0
  | some id => mainline.reverse.idxOf id + 1

def ComesBefore (mainline : List EventId) (left right : Pdu)
    (leftClosest rightClosest : Option EventId) : Prop :=
  toLex (position mainline leftClosest,
      toLex (left.originServerTs, left.eventId)) <
    toLex (position mainline rightClosest,
      toLex (right.originServerTs, right.eventId))

/-- The sorted list holds the events that can be fetched in the order of the
mainline. -/
structure RealisesMainline (store : EventStore) (mainline : List EventId)
    (toSort sorted : List EventId) : Prop where
  nodup : sorted.Nodup
  members : ∀ id, id ∈ sorted ↔ id ∈ toSort ∧ (store.fetch id).isSome = true
  ordered : sorted.Pairwise (fun left right =>
    ∀ leftEvent rightEvent leftClosest rightClosest,
      store.fetch left = some leftEvent →
      store.fetch right = some rightEvent →
      Closest store mainline leftEvent leftClosest →
      Closest store mainline rightEvent rightClosest →
      ComesBefore mainline leftEvent rightEvent leftClosest rightClosest)

/-- Every event leads back through power levels events that can be fetched, and
those that reach no mainline event are earlier than those whose closest one is
the oldest. -/
structure StraysFirst (store : EventStore) (mainline : List EventId)
    (toSort : List EventId) : Prop where
  reachable : ∀ id ∈ toSort, ∀ event, store.fetch id = some event →
    ∃ closest, Closest store mainline event closest
  apart : ∀ stray ∈ toSort, ∀ follower ∈ toSort,
    ∀ strayEvent followerEvent oldest, store.fetch stray = some strayEvent →
      store.fetch follower = some followerEvent →
      Closest store mainline strayEvent none →
      mainline.getLast? = some oldest →
      Closest store mainline followerEvent (some oldest) →
      toLex (strayEvent.originServerTs, stray) <
        toLex (followerEvent.originServerTs, follower)

theorem mainline_of_result {rounds : Nat} {start : Option EventId}
    {mainline : List EventId}
    (result : mainlineFrom store rounds start = .ok mainline) :
    Mainline store start mainline := by
  induction rounds generalizing start mainline with
  | zero =>
      cases start with
      | none =>
          simp only [mainlineFrom] at result
          cases result
          exact .nil
      | some id => cases result
  | succ rounds ih =>
      cases start with
      | none =>
          simp only [mainlineFrom] at result
          cases result
          exact .nil
      | some id =>
          obtain ⟨event, fetched, result⟩ := bind_eq_ok result
          obtain ⟨parent, found, result⟩ := bind_eq_ok result
          obtain ⟨rest, behind, final⟩ := bind_eq_ok result
          cases final
          exact .cons (fetchOrNotFound_eq_ok (bounded_eq_ok.mp fetched))
            (bounded_eq_ok.mp found) (ih behind)

namespace Mainline

variable {start : Option EventId} {mainline : List EventId}

theorem unique {other : List EventId} (holds : Mainline store start mainline)
    (otherHolds : Mainline store start other) : mainline = other := by
  induction holds generalizing other with
  | nil =>
      cases otherHolds
      rfl
  | cons fetched follows _ ih =>
      cases otherHolds with
      | cons otherFetched otherFollows otherTail =>
          rw [fetched] at otherFetched
          cases otherFetched
          have same := Except.ok.inj (follows.symm.trans otherFollows)
          subst same
          rw [ih otherTail]

theorem exists_suffix (holds : Mainline store start mainline) {id : EventId}
    (member : id ∈ mainline) :
    ∃ rest, Mainline store (some id) (id :: rest) ∧
      (id :: rest) <:+ mainline := by
  induction holds with
  | nil => cases member
  | cons fetched follows tail ih =>
      rcases mem_cons.mp member with same | later
      · subst same
        exact ⟨_, .cons fetched follows tail, suffix_rfl⟩
      · obtain ⟨rest, behind, suffix⟩ := ih later
        exact ⟨rest, behind, suffix.trans (suffix_cons _ _)⟩

theorem nodup (holds : Mainline store start mainline) : mainline.Nodup := by
  induction holds with
  | nil => exact nodup_nil
  | @cons id event parent rest fetched follows tail ih =>
      refine nodup_cons.mpr ⟨fun again => ?_, ih⟩
      obtain ⟨others, behind, suffix⟩ := tail.exists_suffix again
      have same := behind.unique (.cons fetched follows tail)
      have shorter := suffix.length_le
      rw [same] at shorter
      simp at shorter

end Mainline

section

variable {mainline : List EventId} (nodup : mainline.Nodup) {id : EventId}
include nodup

theorem mem_zipIdx_reverse {depth : Nat} :
    (id, depth) ∈ mainline.reverse.zipIdx ↔
      id ∈ mainline ∧ depth = mainline.reverse.idxOf id := by
  simp only [mem_zipIdx_iff_getElem?, List.getElem?_eq_some_iff]
  constructor
  · rintro ⟨inside, rfl⟩
    refine ⟨mem_reverse.mp (getElem_mem inside), ?_⟩
    exact ((nodup_reverse.mpr nodup).idxOf_getElem _ inside).symm
  · rintro ⟨member, rfl⟩
    have listed := mem_reverse.mpr member
    exact ⟨idxOf_lt_length_iff.mpr listed, getElem_idxOf _⟩

theorem lookup_mainlineMap {depth : Nat} :
    (mainlineMap mainline).lookup id = some depth ↔
      id ∈ mainline ∧ depth = mainline.reverse.idxOf id := by
  constructor
  · intro found
    exact (mem_zipIdx_reverse nodup).mp (mem_of_lookup_collect found)
  · intro placed
    refine lookup_collect ((mem_zipIdx_reverse nodup).mpr placed) ?_
    intro other listed
    rw [((mem_zipIdx_reverse nodup).mp listed).2, placed.2]

theorem lookup_mainlineMap_none :
    (mainlineMap mainline).lookup id = none ↔ id ∉ mainline := by
  rw [← not_iff_not, not_not, ← ne_eq, Option.ne_none_iff_exists']
  constructor
  · rintro ⟨depth, found⟩
    exact ((lookup_mainlineMap nodup).mp found).1
  · intro member
    exact ⟨_, (lookup_mainlineMap nodup).mpr ⟨member, rfl⟩⟩

end

section

variable {mainline : List EventId}

theorem Closest.unique {event : Pdu} {closest other : Option EventId}
    (holds : Closest store mainline event closest)
    (otherHolds : Closest store mainline event other) : closest = other := by
  induction holds with
  | here member =>
      cases otherHolds with
      | here _ => rfl
      | up outside _ _ | beyond outside _ => exact absurd member outside
  | up outside follows _ ih =>
      cases otherHolds with
      | here member => exact absurd member outside
      | up _ otherFollows further =>
          have same := Except.ok.inj (follows.symm.trans otherFollows)
          cases same
          exact ih further
      | beyond _ otherFollows =>
          cases Except.ok.inj (follows.symm.trans otherFollows)
  | beyond outside follows =>
      cases otherHolds with
      | here member => exact absurd member outside
      | up _ otherFollows _ =>
          cases Except.ok.inj (follows.symm.trans otherFollows)
      | beyond _ _ => rfl

theorem closest_of_depth (nodup : mainline.Nodup) {rounds : Nat}
    {event : Pdu} {depth : Nat}
    (result : getMainlineDepth store (mainlineMap mainline) rounds
      (some event) = .ok depth) :
    ∃ closest, Closest store mainline event closest ∧
      depth = position mainline closest - 1 := by
  induction rounds generalizing event with
  | zero => cases result
  | succ rounds ih =>
      unfold getMainlineDepth at result
      cases placed : (mainlineMap mainline).lookup event.eventId with
      | some found =>
          rw [placed] at result
          cases result
          obtain ⟨member, rfl⟩ := (lookup_mainlineMap nodup).mp placed
          exact ⟨_, .here member, rfl⟩
      | none =>
          rw [placed] at result
          have outside := (lookup_mainlineMap_none nodup).mp placed
          obtain ⟨parent, found, result⟩ := bind_eq_ok result
          have follows := bounded_eq_ok.mp found
          cases parent with
          | none =>
              simp only [getMainlineDepth] at result
              cases result
              exact ⟨none, .beyond outside follows, rfl⟩
          | some parent =>
              obtain ⟨closest, further, same⟩ := ih result
              exact ⟨closest, .up outside follows further, same⟩

theorem depth_of_closest (nodup : mainline.Nodup) {event : Pdu}
    {closest : Option EventId} (holds : Closest store mainline event closest)
    (rounds : Nat) :
    getMainlineDepth store (mainlineMap mainline) rounds (some event) =
        .ok (position mainline closest - 1) ∨
      getMainlineDepth store (mainlineMap mainline) rounds (some event) =
        .error .unfinished := by
  induction holds generalizing rounds with
  | here member =>
      cases rounds with
      | zero => exact .inr rfl
      | succ rounds =>
          refine .inl ?_
          unfold getMainlineDepth
          rw [(lookup_mainlineMap nodup).mpr ⟨member, rfl⟩]
          rfl
  | up outside follows _ ih =>
      cases rounds with
      | zero => exact .inr rfl
      | succ rounds =>
          unfold getMainlineDepth
          rw [(lookup_mainlineMap_none nodup).mpr outside]
          simp only
          rw [follows]
          exact ih rounds
  | beyond outside follows =>
      cases rounds with
      | zero => exact .inr rfl
      | succ rounds =>
          refine .inl ?_
          unfold getMainlineDepth
          rw [(lookup_mainlineMap_none nodup).mpr outside]
          simp only
          rw [follows]
          simp only [bounded, Except.mapError, ok_bind, getMainlineDepth]
          rfl

/-- An event is placed if and only if its closest mainline event can be
found. -/
theorem orderEntry_iff (nodup : mainline.Nodup) {rounds : Nat} {event : Pdu}
    {entry : Option (EventId × OrderKey)}
    (result : orderEntry store (mainlineMap mainline) rounds event =
      .ok entry) {id : EventId} {key : OrderKey} :
    entry = some (id, key) ↔ id = event.eventId ∧ ∃ closest,
        Closest store mainline event closest ∧
        key = toLex (position mainline closest - 1,
          toLex (event.originServerTs, event.eventId)) := by
  unfold orderEntry at result
  constructor
  · rintro rfl
    split at result
    next depth placed =>
      obtain ⟨closest, holds, same⟩ := closest_of_depth nodup placed
      cases result
      exact ⟨rfl, closest, holds, by rw [same]⟩
    · cases result
    · cases result
  · rintro ⟨rfl, closest, holds, rfl⟩
    rcases depth_of_closest nodup holds rounds with placed | unfinished
    · rw [placed] at result
      cases result
      rfl
    · rw [unfinished] at result
      cases result

end

section

variable {mainline : List EventId}

def PlacedAt (store : EventStore) (mainline : List EventId) (id : EventId)
    (key : OrderKey) : Prop :=
  ∃ event closest, store.fetch id = some event ∧
    Closest store mainline event closest ∧
    key = toLex (position mainline closest - 1,
      toLex (event.originServerTs, event.eventId))

theorem PlacedAt.unique {id : EventId} {key other : OrderKey}
    (placed : PlacedAt store mainline id key)
    (otherPlaced : PlacedAt store mainline id other) : key = other := by
  obtain ⟨event, closest, fetched, holds, rfl⟩ := placed
  obtain ⟨_, otherClosest, again, otherHolds, rfl⟩ := otherPlaced
  rw [fetched] at again
  cases again
  rw [holds.unique otherHolds]

theorem mem_places (nodup : mainline.Nodup) {orders : MainlineOrders}
    {rounds : Nat} {toSort : List EventId}
    {entries : List (Option (EventId × OrderKey))}
    (result : (pdusToSort store orders toSort).mapM
      (orderEntry store (mainlineMap mainline) rounds) = .ok entries)
    {id : EventId} {key : OrderKey} :
    (id, key) ∈ entries.filterMap (fun entry => entry) ↔
      id ∈ toSort ∧ PlacedAt store mainline id key := by
  rw [mem_filterMap]
  constructor
  · rintro ⟨entry, listed, rfl⟩
    obtain ⟨event, member, placed⟩ := (mapM_matches result).1 _ listed
    obtain ⟨rfl, closest, holds, rfl⟩ := (orderEntry_iff nodup placed).mp rfl
    obtain ⟨inside, fetched⟩ := mem_pdusToSort member
    exact ⟨inside, event, closest, fetched, holds, rfl⟩
  · rintro ⟨inside, event, closest, fetched, holds, rfl⟩
    have member : event ∈ pdusToSort store orders toSort :=
      Completion.mem_bufferUnordered.mpr (mem_filterMap.mpr
        ⟨id, Completion.mem_bufferUnordered.mpr inside, fetched⟩)
    obtain ⟨entry, listed, placed⟩ := (mapM_matches result).2 _ member
    exact ⟨entry, listed, (orderEntry_iff nodup placed).mpr
      ⟨(store.named fetched).symm, closest, holds, rfl⟩⟩

section

variable {keys : HashOrder} {places : List (EventId × OrderKey)}

theorem sortByPlace_mem {id : EventId} :
    id ∈ sortByPlace keys places ↔ ∃ key, (id, key) ∈ places := by
  unfold sortByPlace
  rw [mem_map]
  constructor
  · rintro ⟨⟨other, key⟩, listed, rfl⟩
    have visited := (perm_insertionSort _ _).mem_iff.mp listed
    exact ⟨key, mem_of_lookup_collect (AList.mem_lookup_iff.mpr
      ((keys.perm _).mem_iff.mp visited))⟩
  · rintro ⟨key, listed⟩
    obtain ⟨last, found⟩ := lookup_collect_isSome listed
    exact ⟨⟨id, last⟩, (perm_insertionSort _ _).mem_iff.mpr
      ((keys.perm _).mem_iff.mpr (AList.mem_lookup_iff.mp found)), rfl⟩

theorem sortByPlace_nodup : (sortByPlace keys places).Nodup :=
  nodup_insertionSort_keys keys places

theorem sortByPlace_pairwise
    (named : ∀ place ∈ places, (ofLex (ofLex place.2).2).2 = place.1)
    (only : ∀ id left right, (id, left) ∈ places → (id, right) ∈ places →
      left = right) :
    (sortByPlace keys places).Pairwise (fun left right =>
      ∀ leftKey rightKey, (left, leftKey) ∈ places →
        (right, rightKey) ∈ places → leftKey < rightKey) := by
  have distinct : (sortByPlace keys places).Nodup := sortByPlace_nodup
  unfold sortByPlace at distinct ⊢
  rw [List.Nodup, pairwise_map] at distinct
  rw [pairwise_map]
  have sorted := pairwise_insertionSort
    (fun left right : (_ : EventId) × OrderKey => left.2 ≤ right.2)
    (keys.map (collect places)).entries
  have listed : ∀ entry ∈ (keys.map (collect places)).entries.insertionSort
      (fun left right => left.2 ≤ right.2), (entry.1, entry.2) ∈ places := by
    intro entry member
    have visited := (perm_insertionSort _ _).mem_iff.mp member
    exact mem_of_lookup_collect (AList.mem_lookup_iff.mpr
      ((keys.perm _).mem_iff.mp visited))
  refine (sorted.and distinct).imp_of_mem ?_
  rintro ⟨left, leftKey⟩ ⟨right, rightKey⟩ leftMember rightMember
    ⟨below, different⟩ leftOther rightOther leftListed rightListed
  have sameLeft := only left leftOther leftKey leftListed (listed _ leftMember)
  have sameRight := only right rightOther rightKey rightListed
    (listed _ rightMember)
  subst sameLeft sameRight
  refine lt_of_le_of_ne below (fun same => different ?_)
  have leftName := named _ leftListed
  have rightName := named _ rightListed
  simp only at leftName rightName same
  rw [← leftName, ← rightName, same]

end

theorem PlacedAt.named {id : EventId} {key : OrderKey}
    (placed : PlacedAt store mainline id key) :
    (ofLex (ofLex key).2).2 = id := by
  obtain ⟨event, closest, fetched, _, rfl⟩ := placed
  exact store.named fetched

/-- What a sorted list is, whichever way the ties are meant. -/
structure SortedByDepth (store : EventStore) (mainline : List EventId)
    (toSort sorted : List EventId) : Prop where
  nodup : sorted.Nodup
  members : ∀ id, id ∈ sorted ↔ id ∈ toSort ∧
    ∃ key, PlacedAt store mainline id key
  ordered : sorted.Pairwise (fun left right =>
    ∀ leftKey rightKey, PlacedAt store mainline left leftKey →
      PlacedAt store mainline right rightKey → leftKey < rightKey)

variable {toSort sorted : List EventId}

theorem mainlineSort_sorted {orders : MainlineOrders} {rounds : Nat}
    {resolvedPowerLevel : Option EventId} (nonempty : toSort ≠ [])
    (result : mainlineSort store orders rounds toSort resolvedPowerLevel =
      .ok sorted) :
    ∃ mainline, Mainline store resolvedPowerLevel mainline ∧
      SortedByDepth store mainline toSort sorted := by
  rw [mainlineSort_eq, if_neg (by simpa using nonempty)] at result
  obtain ⟨mainline, walked, result⟩ := bind_eq_ok result
  obtain ⟨entries, placed, final⟩ := bind_eq_ok result
  cases final
  have holds := mainline_of_result walked
  have places : ∀ {eventId key}, (eventId, key) ∈ entries.filterMap id ↔
      eventId ∈ toSort ∧ PlacedAt store mainline eventId key :=
    mem_places holds.nodup placed
  refine ⟨mainline, holds, sortByPlace_nodup, ?_, ?_⟩
  · intro eventId
    rw [sortByPlace_mem]
    simp only [places, exists_and_left]
  · have ordered := @sortByPlace_pairwise orders.keys (entries.filterMap id)
      (fun place listed => (places.mp listed).2.named)
      (fun _ _ _ leftListed rightListed =>
        (places.mp leftListed).2.unique (places.mp rightListed).2)
    refine ordered.imp_of_mem ?_
    intro left right leftMember rightMember below leftKey rightKey leftPlaced
      rightPlaced
    obtain ⟨_, leftListed⟩ := sortByPlace_mem.mp leftMember
    obtain ⟨_, rightListed⟩ := sortByPlace_mem.mp rightMember
    exact below leftKey rightKey
      (places.mpr ⟨(places.mp leftListed).1, leftPlaced⟩)
      (places.mpr ⟨(places.mp rightListed).1, rightPlaced⟩)

theorem Closest.mem {event : Pdu} {id : EventId}
    (holds : Closest store mainline event (some id)) : id ∈ mainline := by
  generalize same : some id = closest at holds
  induction holds with
  | here member =>
      cases same
      exact member
  | up _ _ _ ih => exact ih same
  | beyond _ _ => cases same

theorem idxOf_reverse_eq_zero {id : EventId} (member : id ∈ mainline) :
    mainline.reverse.idxOf id = 0 ↔ mainline.getLast? = some id := by
  rw [← head?_reverse]
  have listed := mem_reverse.mpr member
  generalize mainline.reverse = reversed at listed
  cases reversed with
  | nil => cases listed
  | cons head tail =>
      by_cases same : head = id
      · simp [same]
      · simp [same, idxOf_cons_ne _ same]

theorem SortedByDepth.realises_iff
    (holds : SortedByDepth store mainline toSort sorted) :
    RealisesMainline store mainline toSort sorted ↔
      StraysFirst store mainline toSort := by
  constructor
  · intro realises
    have reachable : ∀ id ∈ toSort, ∀ event, store.fetch id = some event →
        ∃ closest, Closest store mainline event closest := by
      intro id inside event fetched
      have listed := (realises.members id).mpr ⟨inside, by rw [fetched]; rfl⟩
      obtain ⟨_, _, other, closest, again, closestHolds, _⟩ :=
        (holds.members id).mp listed
      rw [fetched] at again
      cases again
      exact ⟨closest, closestHolds⟩
    refine ⟨reachable, ?_⟩
    intro stray strayInside follower followerInside strayEvent followerEvent
      oldest strayFetched followerFetched strayHolds last followerHolds
    have different : stray ≠ follower := by
      rintro rfl
      rw [strayFetched] at followerFetched
      cases followerFetched
      cases strayHolds.unique followerHolds
    have strayListed := (realises.members stray).mpr
      ⟨strayInside, by rw [strayFetched]; rfl⟩
    have followerListed := (realises.members follower).mpr
      ⟨followerInside, by rw [followerFetched]; rfl⟩
    cases before_or_after (holds.ordered.and realises.ordered) strayListed
      followerListed different with
    | inl before =>
        have keys := before.1 _ _ ⟨_, _, strayFetched, strayHolds, rfl⟩
          ⟨_, _, followerFetched, followerHolds, rfl⟩
        have oldestDepth := (idxOf_reverse_eq_zero followerHolds.mem).mpr last
        simpa [Prod.Lex.toLex_lt_toLex, position, oldestDepth,
          store.named strayFetched, store.named followerFetched] using keys
    | inr after =>
        have order := after.2 _ _ _ _ followerFetched strayFetched
          followerHolds strayHolds
        simp [ComesBefore, Prod.Lex.toLex_lt_toLex, position] at order
  · intro first
    refine ⟨holds.nodup, fun id => ?_, ?_⟩
    · rw [holds.members]
      refine and_congr_right (fun inside => ?_)
      constructor
      · rintro ⟨_, event, _, fetched, _⟩
        rw [fetched]
        rfl
      · intro known
        obtain ⟨event, fetched⟩ := Option.isSome_iff_exists.mp known
        obtain ⟨closest, closestHolds⟩ := first.reachable id inside event
          fetched
        exact ⟨_, event, closest, fetched, closestHolds, rfl⟩
    · refine holds.ordered.imp_of_mem ?_
      intro left right leftMember rightMember below leftEvent rightEvent
        leftClosest rightClosest leftFetched rightFetched leftHolds rightHolds
      have keys := below _ _ ⟨_, _, leftFetched, leftHolds, rfl⟩
        ⟨_, _, rightFetched, rightHolds, rfl⟩
      have leftInside := ((holds.members left).mp leftMember).1
      have rightInside := ((holds.members right).mp rightMember).1
      unfold ComesBefore
      rw [Prod.Lex.toLex_lt_toLex] at keys ⊢
      simp only at keys ⊢
      cases leftClosest with
      | none =>
          cases rightClosest with
          | none => simpa [position] using keys
          | some rightId => exact .inl (Nat.succ_pos _)
      | some leftId =>
          cases rightClosest with
          | some rightId =>
              simpa [position, Nat.add_right_cancel_iff] using keys
          | none =>
              simp only [position, Nat.add_sub_cancel, Nat.zero_sub,
                Nat.not_lt_zero, false_or] at keys
              obtain ⟨oldestDepth, tie⟩ := keys
              have last := (idxOf_reverse_eq_zero leftHolds.mem).mp oldestDepth
              have other := first.apart right rightInside left leftInside
                rightEvent leftEvent leftId rightFetched leftFetched
                rightHolds last leftHolds
              rw [store.named leftFetched, store.named rightFetched] at tie
              exact absurd tie other.asymm

theorem SortedByDepth.unique {otherToSort other : List EventId}
    (perm : toSort.Perm otherToSort)
    (holds : SortedByDepth store mainline toSort sorted)
    (otherHolds : SortedByDepth store mainline otherToSort other) :
    other = sorted := by
  have same : other.Perm sorted :=
    (perm_ext_iff_of_nodup otherHolds.nodup holds.nodup).mpr
      (fun id => by rw [otherHolds.members, holds.members, perm.mem_iff])
  refine same.eq_of_pairwise ?_ otherHolds.ordered holds.ordered
  intro one another oneListed anotherListed before after
  obtain ⟨_, oneKey, onePlaced⟩ := (otherHolds.members one).mp oneListed
  obtain ⟨_, anotherKey, anotherPlaced⟩ :=
    (holds.members another).mp anotherListed
  exact absurd (before _ _ onePlaced anotherPlaced)
    (after _ _ anotherPlaced onePlaced).asymm

end

variable {resolvedPowerLevel : Option EventId}

theorem mainlineSort_nil {orders : MainlineOrders} {rounds : Nat}
    {sorted : List EventId}
    (result : mainlineSort store orders rounds [] resolvedPowerLevel =
      .ok sorted) : sorted = [] := by
  cases result
  rfl

theorem mainlineSort_unique {orders otherOrders : MainlineOrders}
    {rounds otherRounds : Nat} {toSort otherToSort sorted other : List EventId}
    (perm : toSort.Perm otherToSort)
    (result : mainlineSort store orders rounds toSort resolvedPowerLevel =
      .ok sorted)
    (otherResult : mainlineSort store otherOrders otherRounds otherToSort
      resolvedPowerLevel = .ok other) : other = sorted := by
  cases toSort with
  | nil =>
      cases perm.nil_eq
      rw [mainlineSort_nil result, mainlineSort_nil otherResult]
  | cons first rest =>
      have nonempty : otherToSort ≠ [] := by
        rintro rfl
        exact absurd perm.symm.nil_eq (by simp)
      obtain ⟨mainline, behind, holds⟩ := mainlineSort_sorted (by simp) result
      obtain ⟨otherMainline, otherBehind, otherHolds⟩ :=
        mainlineSort_sorted nonempty otherResult
      cases behind.unique otherBehind
      exact holds.unique perm otherHolds

/-- The sorted events are in the order of the mainline, if and only if every
event leads back to it or to no power levels event, and those that do not reach
it are earlier than those right behind its oldest event.  The order in which
the events come makes no difference, and the sort ends where no event is among
its own auth events. -/
theorem mainlineSort_realises_iff (store : EventStore)
    (toSort : List EventId) (resolvedPowerLevel : Option EventId) :
    (∀ orders rounds sorted,
      mainlineSort store orders rounds toSort resolvedPowerLevel = .ok sorted →
      (toSort = [] ∧ sorted = []) ∨
      ∃ mainline, Mainline store resolvedPowerLevel mainline ∧
        (RealisesMainline store mainline toSort sorted ↔
          StraysFirst store mainline toSort)) ∧
    (∀ orders otherOrders rounds otherRounds otherToSort sorted other,
      toSort.Perm otherToSort →
      mainlineSort store orders rounds toSort resolvedPowerLevel = .ok sorted →
      mainlineSort store otherOrders otherRounds otherToSort
        resolvedPowerLevel = .ok other →
      other = sorted) ∧
    (WellFounded (fun next id => next ∈ (store.authEventsOf id).getD []) →
      ∃ bound, ∀ orders otherOrders rounds otherRounds otherToSort,
        bound ≤ rounds → bound ≤ otherRounds → toSort.Perm otherToSort →
        Agree Stop.Final
          (mainlineSort store orders rounds toSort resolvedPowerLevel)
          (mainlineSort store otherOrders otherRounds otherToSort
            resolvedPowerLevel)) := by
  refine ⟨?_, ?_, ?_⟩
  · intro orders rounds sorted result
    cases toSort with
    | nil => exact .inl ⟨rfl, mainlineSort_nil result⟩
    | cons first rest =>
        obtain ⟨mainline, behind, holds⟩ := mainlineSort_sorted (by simp) result
        exact .inr ⟨mainline, behind, holds.realises_iff⟩
  · intro orders otherOrders rounds otherRounds otherToSort sorted other perm
      result otherResult
    exact mainlineSort_unique perm result otherResult
  · intro descends
    obtain ⟨weight, weighs⟩ := exists_weight descends
    refine ⟨load weight toSort + load weight resolvedPowerLevel.toList + 1,
      fun orders otherOrders rounds otherRounds otherToSort enough
        otherEnough perm => ?_⟩
    refine mainlineSort_agree weighs perm (fun id member => ?_)
      (fun id member => ?_)
    · have light := weight_le_load weight member
      omega
    · have light := weight_le_load weight (Option.mem_toList.mpr member)
      omega

namespace TwoLevels

def pdu (eventId : EventId) (kind : EventType) (originServerTs : Nat)
    (authEvents : List EventId) : Pdu :=
  { Pdu.message eventId "!room:h" "@alice:h" with
    originServerTs, kind, stateKey := some "", authEvents }

def fetch : EventId → Option Pdu
  | "$old" => some (pdu "$old" .roomPowerLevels 1 [])
  | "$new" => some (pdu "$new" .roomPowerLevels 2 ["$old"])
  | "$name" => some (pdu "$name" (.other "m.room.name") 3 ["$old"])
  | "$topic" => some (pdu "$topic" (.other "m.room.topic") 5 ["$new"])
  | "$stray" => some (pdu "$stray" (.other "m.room.avatar") 9 [])
  | _ => none

def events : EventStore where
  fetch := fetch
  named := by
    intro id event found
    unfold fetch at found
    split at found
    case h_6 => cases found
    all_goals
      cases found
      rfl

def orders : MainlineOrders where
  fetches := Completion.oldestFirst 32 width_positive
  depths := Completion.oldestFirst 32 width_positive
  keys := HashOrder.inserted

theorem mainline : Mainline events (some "$new") ["$new", "$old"] :=
  .cons rfl rfl (.cons rfl rfl .nil)

theorem name_closest : Closest events ["$new", "$old"]
    (pdu "$name" (.other "m.room.name") 3 ["$old"]) (some "$old") :=
  .up (by decide) rfl (.here (by decide))

theorem topic_closest : Closest events ["$new", "$old"]
    (pdu "$topic" (.other "m.room.topic") 5 ["$new"]) (some "$new") :=
  .up (by decide) rfl (.here (by decide))

theorem stray_closest : Closest events ["$new", "$old"]
    (pdu "$stray" (.other "m.room.avatar") 9 []) none :=
  .beyond (by decide) rfl

theorem sorted_withoutStray :
    RealisesMainline events ["$new", "$old"] ["$topic", "$name"]
      ["$name", "$topic"] := by
  have result : mainlineSort events orders 4 ["$topic", "$name"]
      (some "$new") = .ok ["$name", "$topic"] := by decide +kernel
  rcases (mainlineSort_realises_iff events ["$topic", "$name"]
      (some "$new")).1 orders 4 _ result with ⟨empty, _⟩ |
    ⟨other, behind, realises⟩
  · cases empty
  · cases behind.unique mainline
    refine realises.mpr ⟨?_, ?_⟩
    · intro id inside event fetched
      obtain rfl | rfl : id = "$topic" ∨ id = "$name" := by simpa using inside
      · cases fetched
        exact ⟨_, topic_closest⟩
      · cases fetched
        exact ⟨_, name_closest⟩
    · intro stray inside _ _ strayEvent _ _ fetched _ strays
      obtain rfl | rfl : stray = "$topic" ∨ stray = "$name" := by
        simpa using inside
      · cases fetched
        cases strays.unique topic_closest
      · cases fetched
        cases strays.unique name_closest

/-- The stray event is behind one of the oldest power levels. -/
theorem stray_second :
    Mainline events (some "$new") ["$new", "$old"] ∧
    mainlineSort events orders 4 ["$stray", "$topic", "$name"]
      (some "$new") = .ok ["$name", "$stray", "$topic"] ∧
    ¬ RealisesMainline events ["$new", "$old"] ["$stray", "$topic", "$name"]
      ["$name", "$stray", "$topic"] := by
  refine ⟨mainline, by decide +kernel, fun realises => ?_⟩
  have first := pairwise_cons.mp realises.ordered
  have before := first.1 "$stray" (by simp) _ _ _ _ rfl rfl name_closest
    stray_closest
  simp [ComesBefore, Prod.Lex.toLex_lt_toLex, position] at before

end TwoLevels

end ArcanaServer.StateRes
