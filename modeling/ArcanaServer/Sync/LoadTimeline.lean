import ArcanaServer.StateRes.RoomVersion
import Mathlib.Algebra.Group.Nat.Defs
import Mathlib.Data.Int.Order.Basic
import Mathlib.Data.List.TakeWhile

namespace ArcanaServer.Sync

open ArcanaServer.Matrix List

def i64Max : Nat := 2 ^ 63 - 1

inductive PduCount where
  | backfilled (count : Int)
  | normal (count : Nat)
  deriving DecidableEq, Repr

namespace PduCount

def signed : PduCount → Int
  | .backfilled count => count
  | .normal count => count

def saturatingAdd : PduCount → Nat → PduCount
  | .backfilled count, add => .backfilled (count + add)
  | .normal count, add => .normal (count + add)

def saturatingSub : PduCount → Nat → PduCount
  | .backfilled count, sub => .backfilled (count - sub)
  | .normal count, sub => .normal (count - sub)

def max : PduCount := .normal i64Max

end PduCount

abbrev PduTable := List (PduCount × Pdu)

structure TimelinePdus where
  pdus : List (PduCount × Pdu)
  limited : Bool

def TimelinePdus.default : TimelinePdus where
  pdus := []
  limited := false

def pdusRev (table : PduTable) (bound : PduCount) : List (PduCount × Pdu) :=
  table.reverse.filter
    (fun entry => entry.1.signed ≤ (bound.saturatingSub 1).signed)

def lastTimelineCount (table : PduTable) : PduCount :=
  match (pdusRev table .max).head? with
  | some (.normal count, _) => .normal count
  | _ => .max

variable (table : PduTable) (startingCount : Option PduCount)
  (endingCount : Option PduCount)

/-- What `load_timeline` reads from the database, before it counts. -/
def pduStream : List (PduCount × Pdu) :=
  let pdus := pdusRev table ((endingCount.map (·.saturatingAdd 1)).getD .max)
  match startingCount with
  | some start =>
      pdus.takeWhile (fun entry => start.signed < entry.1.signed)
  | none => pdus

def takeTimeline (stream : List (PduCount × Pdu)) (limit : Nat) :
    TimelinePdus where
  pdus := (stream.take limit).reverse
  limited := (stream.drop limit).head?.isSome

def loadTimeline (limit : Nat) : TimelinePdus :=
  match startingCount with
  | some start =>
      if (lastTimelineCount table).signed ≤ start.signed then .default
      else takeTimeline (pduStream table startingCount endingCount) limit
  | none => takeTimeline (pduStream table startingCount endingCount) limit

def Ascending (table : PduTable) : Prop :=
  table.Pairwise (fun first second => first.1.signed < second.1.signed)

def After (startingCount : Option PduCount) (count : PduCount) : Prop :=
  ∀ start, startingCount = some start → start.signed < count.signed

theorem saturatingAdd_sub_signed (count : PduCount) :
    ((count.saturatingAdd 1).saturatingSub 1).signed = count.signed := by
  cases count with
  | backfilled count | normal count =>
      simp only [PduCount.saturatingAdd, PduCount.saturatingSub,
        PduCount.signed]
      omega

section

variable {table : PduTable} {entry : PduCount × Pdu}

theorem mem_pdusRev_next {ending : PduCount} :
    entry ∈ pdusRev table (ending.saturatingAdd 1) ↔
      entry ∈ table ∧ entry.1.signed ≤ ending.signed := by
  unfold pdusRev
  rw [mem_filter, mem_reverse, saturatingAdd_sub_signed, decide_eq_true_iff]

theorem mem_takeWhile_of_later {table : List (PduCount × Pdu)}
    (descending : table.Pairwise
      (fun first second => second.1.signed < first.1.signed)) {start : Int}
    (member : entry ∈ table) (later : start < entry.1.signed) :
    entry ∈ table.takeWhile (fun entry => start < entry.1.signed) := by
  induction table with
  | nil => cases member
  | cons first rest inductionHypothesis =>
      obtain ⟨above, descendingRest⟩ := pairwise_cons.mp descending
      have passes : start < first.1.signed := by
        rcases mem_cons.mp member with here | inRest
        · exact here ▸ later
        · exact lt_trans later (above entry inRest)
      rw [takeWhile_cons_of_pos (by simpa using passes)]
      rcases mem_cons.mp member with here | inRest
      · exact here ▸ mem_cons_self
      · exact mem_cons_of_mem _ (inductionHypothesis descendingRest inRest)

theorem pdusRev_descending (ascending : Ascending table) (bound : PduCount) :
    (pdusRev table bound).Pairwise
      (fun first second => second.1.signed < first.1.signed) :=
  (pairwise_reverse.mpr ascending).filter _

theorem mem_pduStream (ascending : Ascending table) {starting : Option PduCount}
    {ending : PduCount} :
    entry ∈ pduStream table starting (some ending) ↔
      entry ∈ table ∧ After starting entry.1 ∧
        entry.1.signed ≤ ending.signed := by
  cases starting with
  | none =>
      change entry ∈ pdusRev table (ending.saturatingAdd 1) ↔ _
      rw [mem_pdusRev_next]
      constructor
      · rintro ⟨member, before⟩
        refine ⟨member, ?_, before⟩
        rintro start ⟨⟩
      · rintro ⟨member, _, before⟩
        exact ⟨member, before⟩
  | some start =>
      change entry ∈ (pdusRev table (ending.saturatingAdd 1)).takeWhile
        (fun entry => start.signed < entry.1.signed) ↔ _
      constructor
      · intro taken
        obtain ⟨member, before⟩ :=
          mem_pdusRev_next.mp ((takeWhile_sublist _).subset taken)
        refine ⟨member, ?_, before⟩
        rintro _ ⟨⟩
        simpa using mem_takeWhile_imp taken
      · rintro ⟨member, after, before⟩
        exact mem_takeWhile_of_later (pdusRev_descending ascending _)
          (mem_pdusRev_next.mpr ⟨member, before⟩) (after start rfl)

theorem mem_takeTimeline {stream : List (PduCount × Pdu)} {limit : Nat}
    (member : entry ∈ (takeTimeline stream limit).pdus) : entry ∈ stream :=
  mem_of_mem_take (mem_reverse.mp member)

/-- What is not taken lies behind the limit. -/
theorem takeTimeline_complete {stream : List (PduCount × Pdu)} {limit : Nat}
    (member : entry ∈ stream) :
    entry ∈ (takeTimeline stream limit).pdus ∨
      (takeTimeline stream limit).limited = true := by
  rw [← take_append_drop limit stream] at member
  rcases mem_append.mp member with taken | dropped
  · exact .inl (mem_reverse.mpr taken)
  · right
    change (stream.drop limit).head?.isSome = true
    cases isRest : stream.drop limit with
    | nil =>
        rw [isRest] at dropped
        cases dropped
    | cons first rest => rfl

/-- The last count bounds the counts of the room. -/
theorem le_lastTimelineCount (ascending : Ascending table)
    (member : entry ∈ table) (small : entry.1.signed < i64Max) :
    entry.1.signed ≤ (lastTimelineCount table).signed := by
  have seen : entry ∈ pdusRev table .max := by
    unfold pdusRev
    rw [mem_filter, mem_reverse, decide_eq_true_iff]
    refine ⟨member, ?_⟩
    have isMax : ((PduCount.max.saturatingSub 1).signed : Int) =
        (i64Max : Int) - 1 := rfl
    rw [isMax]
    omega
  have descending := pdusRev_descending ascending .max
  unfold lastTimelineCount
  cases isStream : pdusRev table .max with
  | nil =>
      rw [isStream] at seen
      cases seen
  | cons first rest =>
      rw [isStream] at seen descending
      have greatest : entry.1.signed ≤ first.1.signed := by
        rcases mem_cons.mp seen with here | later
        · exact le_of_eq (by rw [here])
        · exact le_of_lt ((pairwise_cons.mp descending).1 entry later)
      obtain ⟨count, pdu⟩ := first
      cases count with
      | normal count => exact greatest
      | backfilled count => exact le_of_lt small

section

variable {table : PduTable} (ascending : Ascending table)
  {starting : Option PduCount} {ending : PduCount} {limit : Nat}
  {entry : PduCount × Pdu}
include ascending

theorem loadTimeline_sound (member : entry ∈
      (loadTimeline table starting (some ending) limit).pdus) :
    entry ∈ table ∧ After starting entry.1 ∧
      entry.1.signed ≤ ending.signed := by
  unfold loadTimeline at member
  cases starting with
  | none => exact (mem_pduStream ascending).mp (mem_takeTimeline member)
  | some start =>
      simp only at member
      split at member
      · cases member
      · exact (mem_pduStream ascending).mp (mem_takeTimeline member)

theorem loadTimeline_complete (member : entry ∈ table)
    (small : entry.1.signed < i64Max) (lower : After starting entry.1)
    (upper : entry.1.signed ≤ ending.signed) :
    entry ∈ (loadTimeline table starting (some ending) limit).pdus ∨
      (loadTimeline table starting (some ending) limit).limited = true := by
  have streamed : entry ∈ pduStream table starting (some ending) :=
    (mem_pduStream ascending).mpr ⟨member, lower, upper⟩
  unfold loadTimeline
  cases starting with
  | none => exact takeTimeline_complete streamed
  | some start =>
      have latest := le_lastTimelineCount ascending member small
      have later := lower start rfl
      simp only
      rw [if_neg (by omega)]
      exact takeTimeline_complete streamed

end

theorem loadTimeline_pdus_ne_nil {table : PduTable}
    {starting : Option PduCount} {ending : Option PduCount} {limit : Nat}
    (positive : 0 < limit)
    (limited : (loadTimeline table starting ending limit).limited = true) :
    (loadTimeline table starting ending limit).pdus ≠ [] := by
  have taken : ∀ stream : List (PduCount × Pdu),
      (takeTimeline stream limit).limited = true →
      (takeTimeline stream limit).pdus ≠ [] := by
    intro stream isLimited
    cases stream with
    | nil => simp [takeTimeline] at isLimited
    | cons first rest =>
        unfold takeTimeline
        simp only [ne_eq, reverse_eq_nil_iff, take_eq_nil_iff,
          reduceCtorEq, or_false]
        exact Nat.ne_of_gt positive
  unfold loadTimeline at limited ⊢
  cases starting with
  | none => exact taken _ limited
  | some start =>
      simp only at limited ⊢
      split at limited
      · cases limited
      next begun =>
        rw [if_neg begun]
        exact taken _ limited

theorem pduStream_takeWhile {table : PduTable} {since pos : Nat}
    (le : since ≤ pos) (ending : PduCount) :
    (pduStream table (some (.normal since)) (some ending)).takeWhile
        (fun entry => (pos : Int) < entry.1.signed) =
      pduStream table (some (.normal pos)) (some ending) := by
  unfold pduStream
  simp only [takeWhile_takeWhile]
  congr 1
  funext entry
  have implied : (pos : Int) < entry.1.signed →
      (since : Int) < entry.1.signed := by omega
  rw [decide_eq_decide, decide_eq_true_iff, decide_eq_true_iff]
  exact and_iff_left_of_imp implied

/-- When a timeline that starts early has no event up to a later position. -/
theorem loadTimeline_after_iff {table : PduTable} (ascending : Ascending table)
    (small : ∀ entry ∈ table, entry.1.signed < i64Max) {since pos : Nat}
    (le : since ≤ pos) {ending : PduCount} {limit : Nat} :
    (∀ entry ∈ (loadTimeline table (some (.normal since)) (some ending)
        limit).pdus, (pos : Int) < entry.1.signed) ↔
      (∀ entry ∈ table, (since : Int) < entry.1.signed →
        entry.1.signed ≤ ending.signed → (pos : Int) < entry.1.signed) ∨
      limit ≤ (pduStream table (some (.normal pos)) (some ending)).length := by
  have streamed : ∀ {entry : PduCount × Pdu},
      entry ∈ pduStream table (some (.normal since)) (some ending) ↔
        entry ∈ table ∧ (since : Int) < entry.1.signed ∧
          entry.1.signed ≤ ending.signed := by
    intro entry
    rw [mem_pduStream ascending]
    unfold After
    simp [PduCount.signed]
  unfold loadTimeline
  simp only
  split
  next ended =>
    have older : ∀ entry ∈ table, entry.1.signed ≤ (since : Int) := by
      intro entry member
      exact (le_lastTimelineCount ascending member
        (small entry member)).trans ended
    refine iff_of_true ?_ (.inl ?_)
    · intro entry member
      cases member
    · intro entry member later
      exact absurd later (not_lt_of_ge (older entry member))
  · have taken := Library.forall_take_iff
      (fun entry : PduCount × Pdu => (pos : Int) < entry.1.signed)
      (pduStream table (some (.normal since)) (some ending)) limit
    rw [pduStream_takeWhile le] at taken
    simp only [decide_eq_true_iff, streamed, and_imp] at taken
    rw [← taken]
    unfold takeTimeline
    simp only [mem_reverse]

end

/-- A room state.  Short ids stand for the keys and events that they name, and
are left out here. -/
abbrev StateEntries := List (TypeStateKey × EventId)

/-- What a sync request reads of a room.  `tokenState` is the state that an
earlier request has recorded for its token, `stateAtPdu` the state before an
event. -/
structure RoomSnapshot where
  table : PduTable
  currentState : StateEntries
  tokenState : Nat → Option StateEntries
  stateAtPdu : EventId → Option StateEntries
  nonOutlierPdu : EventId → Option Pdu
  outlierPdu : EventId → Option Pdu
  retainLazyMembers : List UserId → List UserId
  keychangeidUserid : List (Nat × UserId)
  ascending : Ascending table
  small : ∀ entry ∈ table, entry.1.signed < i64Max
  keyed : ∀ eventId pdu, nonOutlierPdu eventId = some pdu →
    pdu.eventId = eventId

structure SyncContext where
  syncingUser : UserId
  lastSyncEndCount : Option Nat
  currentCount : Nat
  fullState : Bool
  timelineLimit : Option Nat
  lazyLoadOptions : Bool

namespace SyncContext

def lazyLoadingEnabled (context : SyncContext) : Bool :=
  context.lazyLoadOptions && !context.fullState

def defaultTimelineLimit : Nat := 30

end SyncContext

namespace RoomSnapshot

variable (room : RoomSnapshot)

def getPdu (eventId : EventId) : Option Pdu :=
  (room.nonOutlierPdu eventId).or (room.outlierPdu eventId)

def stateGet (state : StateEntries) (kind : EventType) (stateKey : StateKey) :
    Option Pdu :=
  (state.lookup (kind, stateKey)).bind room.getPdu

end RoomSnapshot

def stateAdded (recorded current : StateEntries) : StateEntries :=
  current.filter (fun entry => entry ∉ recorded)

/-- Lazy loading leaves out the members that nobody asked for. -/
def isRedundant (ruma : Ruma) (senderUser : UserId) (key : TypeStateKey) :
    Option (List UserId) → Bool
  | none => false
  | some members =>
      key.1 = .roomMember && ruma.validUserId key.2 && senderUser ≠ key.2 &&
        !members.contains key.2

def buildStateInitial (ruma : Ruma) (room : RoomSnapshot)
    (senderUser : UserId) (timelineStart : StateEntries)
    (lazilyLoadedMembers : Option (List UserId)) : List Pdu :=
  (timelineStart.filter (fun entry =>
    !isRedundant ruma senderUser entry.1 lazilyLoadedMembers)).filterMap
      (fun entry => room.getPdu entry.2)

/-- The fold over the timeline.  It carries on the event that the last one
refers to, not the last one itself. -/
def linearFrom : Option EventId → List Pdu → Bool
  | _, [] => true
  | prevEventId, pdu :: rest =>
      match pdu.prevEvents with
      | [pduPrevEventId] =>
          if prevEventId.all (· = pduPrevEventId) then
            linearFrom (some pduPrevEventId) rest
          else false
      | _ => false

def timelineIsLinear (room : RoomSnapshot) (lastSyncEndCount : PduCount)
    (timeline : TimelinePdus) : Bool :=
  timeline.pdus.isEmpty ||
    linearFrom
      ((pdusRev room.table (lastSyncEndCount.saturatingAdd 1)).head?.map
        (fun entry => entry.2.eventId))
      (timeline.pdus.map Prod.snd)

def lazyMembershipEvents (room : RoomSnapshot) (senderUser : UserId)
    (timelineStart : StateEntries) (timeline : TimelinePdus) :
    Option (List UserId) → List Pdu
  | none => []
  | some members =>
      if timeline.pdus.isEmpty then []
      else
        (members.filter (· ≠ senderUser)).filterMap
          (fun userId => room.stateGet timelineStart .roomMember userId)

def stateEventsInTimeline (timeline : TimelinePdus) : List EventId :=
  (timeline.pdus.filter (fun entry => entry.2.stateKey.isSome)).map
    (fun entry => entry.2.eventId)

def buildStateIncremental (room : RoomSnapshot) (senderUser : UserId)
    (lastSyncEndCount : PduCount)
    (recorded timelineStart current : StateEntries) (timeline : TimelinePdus)
    (lazilyLoadedMembers : Option (List UserId)) : List Pdu :=
  if timelineIsLinear room lastSyncEndCount timeline && !timeline.limited then
    lazyMembershipEvents room senderUser timelineStart timeline
      lazilyLoadedMembers
  else
    ((stateAdded recorded current).filter (fun entry =>
      entry.2 ∉ stateEventsInTimeline timeline)).filterMap
        (fun entry => room.nonOutlierPdu entry.2)

section

variable (ruma : Ruma) (room : RoomSnapshot) (context : SyncContext)

def lastSyncEndState : Option StateEntries :=
  context.lastSyncEndCount.bind room.tokenState

def buildTimeline : TimelinePdus :=
  loadTimeline room.table (context.lastSyncEndCount.map .normal)
    (some (.normal context.currentCount))
    (context.timelineLimit.getD SyncContext.defaultTimelineLimit)

def timelineStartState (timeline : TimelinePdus) : StateEntries :=
  match timeline.pdus.head? with
  | some entry => (room.stateAtPdu entry.2.eventId).getD room.currentState
  | none => room.currentState

def lazilyLoadedMembers (timeline : TimelinePdus) : Option (List UserId) :=
  if context.lazyLoadingEnabled then
    some (room.retainLazyMembers
      (timeline.pdus.map (fun entry => entry.2.sender)))
  else none

def buildStateEvents (timeline : TimelinePdus) : List Pdu :=
  let start := timelineStartState room timeline
  let members := lazilyLoadedMembers room context timeline
  match context.lastSyncEndCount, lastSyncEndState room context,
    context.fullState with
  | some lastSyncEndCount, some recorded, false =>
      buildStateIncremental room context.syncingUser
        (.normal lastSyncEndCount) recorded start room.currentState timeline
        members
  | _, _, _ => buildStateInitial ruma room context.syncingUser start members

def membershipIn (state : StateEntries) (userId : UserId) :
    Option MembershipState := do
  let pdu ← room.stateGet state .roomMember userId
  ruma.roomMember pdu.content

def checkJoinedSinceLastSync : Bool :=
  match (lastSyncEndState room context).bind
    (fun recorded => membershipIn ruma room recorded context.syncingUser) with
  | none => true
  | some membership => membership ≠ .join

structure StateAndTimeline where
  stateEvents : List Pdu
  events : List Pdu
  limited : Bool

def buildStateAndTimeline (ignored : Pdu → Bool) : StateAndTimeline :=
  let timeline := buildTimeline room context
  { stateEvents := buildStateEvents ruma room context timeline
    events := (timeline.pdus.filter (fun entry => !ignored entry.2)).map
      Prod.snd
    limited := timeline.limited || checkJoinedSinceLastSync ruma room context }

end

variable {ruma : Ruma} {room : RoomSnapshot} {context : SyncContext}
  {ignored : Pdu → Bool} {since : Nat} {recorded : StateEntries}

def Delivered (response : StateAndTimeline) (eventId : EventId) : Prop :=
  (∃ pdu ∈ response.events, pdu.eventId = eventId) ∨
    ∃ pdu ∈ response.stateEvents, pdu.eventId = eventId

def StateComplete (ruma : Ruma) (room : RoomSnapshot) (context : SyncContext)
    (ignored : Pdu → Bool) (recorded : StateEntries) : Prop :=
  ∀ entry ∈ room.currentState, entry ∉ recorded →
    Delivered (buildStateAndTimeline ruma room context ignored) entry.2

section

variable (room : RoomSnapshot) (context : SyncContext)

def takesFastPath (since : Nat) : Bool :=
  timelineIsLinear room (.normal since) (buildTimeline room context) &&
    !(buildTimeline room context).limited

variable (ignored : Pdu → Bool) (since : Nat) (eventId : EventId)

/-- The event has entered the room between the token and the current count. -/
def AppendedSince : Prop :=
  ∃ entry ∈ room.table, (since : Int) < entry.1.signed ∧
    entry.1.signed ≤ (context.currentCount : Int) ∧
    entry.2.eventId = eventId ∧ ignored entry.2 = false

def InTimeline : Prop :=
  ∃ entry ∈ (buildTimeline room context).pdus, entry.2.eventId = eventId ∧
    ignored entry.2 = false

/-- Where a new state event has to be for the sync to deliver it. -/
def Deliverable : Prop :=
  if takesFastPath room context since then
    AppendedSince room context ignored since eventId
  else
    InTimeline room context ignored eventId ∨
      (eventId ∉ stateEventsInTimeline (buildTimeline room context) ∧
        (room.nonOutlierPdu eventId).isSome)

end

theorem delivered_events {eventId : EventId} :
    (∃ pdu ∈ (buildStateAndTimeline ruma room context ignored).events,
        pdu.eventId = eventId) ↔
      InTimeline room context ignored eventId := by
  unfold buildStateAndTimeline InTimeline
  simp only [mem_map, mem_filter, Bool.not_eq_true']
  constructor
  · rintro ⟨_, ⟨entry, ⟨member, visible⟩, rfl⟩, isEvent⟩
    exact ⟨entry, member, isEvent, visible⟩
  · rintro ⟨entry, member, isEvent, visible⟩
    exact ⟨entry.2, ⟨entry, ⟨member, visible⟩, rfl⟩, isEvent⟩

theorem inTimeline_of_unlimited
    (incremental : context.lastSyncEndCount = some since)
    (unlimited : (buildTimeline room context).limited = false)
    {eventId : EventId} :
    InTimeline room context ignored eventId ↔
      AppendedSince room context ignored since eventId := by
  have isStart : context.lastSyncEndCount.map PduCount.normal =
      some (.normal since) := by
    rw [incremental]
    rfl
  constructor
  · rintro ⟨entry, member, isEvent, visible⟩
    obtain ⟨inTable, lower, upper⟩ := loadTimeline_sound room.ascending member
    exact ⟨entry, inTable, lower (.normal since) isStart, upper, isEvent,
      visible⟩
  · rintro ⟨entry, inTable, lower, upper, isEvent, visible⟩
    have after : After (context.lastSyncEndCount.map .normal) entry.1 := by
      rw [isStart]
      rintro _ ⟨⟩
      exact lower
    have loaded : entry ∈ (buildTimeline room context).pdus ∨
        (buildTimeline room context).limited = true :=
      loadTimeline_complete room.ascending inTable (room.small entry inTable)
        after upper
    rw [unlimited] at loaded
    exact ⟨entry, loaded.resolve_right Bool.false_ne_true, isEvent, visible⟩

theorem stateEvents_eq (incremental : context.lastSyncEndCount = some since)
    (isRecorded : room.tokenState since = some recorded)
    (plain : context.fullState = false)
    (eager : context.lazyLoadOptions = false) :
    (buildStateAndTimeline ruma room context ignored).stateEvents =
      if takesFastPath room context since then []
      else
        ((stateAdded recorded room.currentState).filter (fun entry =>
          entry.2 ∉ stateEventsInTimeline
            (buildTimeline room context))).filterMap
              (fun entry => room.nonOutlierPdu entry.2) := by
  have isState : lastSyncEndState room context = some recorded := by
    unfold lastSyncEndState
    rw [incremental]
    exact isRecorded
  have noMembers :
      lazilyLoadedMembers room context (buildTimeline room context) =
        none := by
    unfold lazilyLoadedMembers SyncContext.lazyLoadingEnabled
    rw [eager]
    rfl
  simp only [buildStateAndTimeline, buildStateEvents, incremental, isState,
    plain, noMembers]
  rfl

/-- Exactly the deliverable events are delivered. -/
theorem stateComplete_iff (ignored : Pdu → Bool)
    (incremental : context.lastSyncEndCount = some since)
    (isRecorded : room.tokenState since = some recorded)
    (plain : context.fullState = false)
    (eager : context.lazyLoadOptions = false) :
    StateComplete ruma room context ignored recorded ↔
      ∀ entry ∈ room.currentState, entry ∉ recorded →
        Deliverable room context ignored since entry.2 := by
  have isBlock : (buildStateAndTimeline ruma room context
      ignored).stateEvents = _ :=
    stateEvents_eq incremental isRecorded plain eager
  refine forall₃_congr fun entry current added => ?_
  unfold Delivered Deliverable
  rw [delivered_events, isBlock]
  cases fast : takesFastPath room context since with
  | true =>
      have unlimited : (buildTimeline room context).limited = false := by
        have both := (Bool.and_eq_true_iff.mp fast).2
        simpa using both
      rw [if_pos rfl, if_pos rfl, inTimeline_of_unlimited incremental unlimited]
      simp
  | false =>
      rw [if_neg Bool.false_ne_true, if_neg Bool.false_ne_true]
      refine or_congr_right ?_
      simp only [mem_filterMap, mem_filter, decide_eq_true_iff]
      constructor
      · rintro ⟨pdu, ⟨other, ⟨_, outside⟩, isPdu⟩, isEvent⟩
        have same : other.2 = entry.2 :=
          (room.keyed other.2 pdu isPdu).symm.trans isEvent
        rw [same] at outside isPdu
        exact ⟨outside, Option.isSome_of_eq_some isPdu⟩
      · rintro ⟨outside, isSome⟩
        obtain ⟨pdu, isPdu⟩ := Option.isSome_iff_exists.mp isSome
        refine ⟨pdu, ⟨entry, ⟨?_, outside⟩, isPdu⟩,
          room.keyed entry.2 pdu isPdu⟩
        exact mem_filter.mpr ⟨current, by simpa using added⟩

def chainedPdu (eventId : EventId) (kind : EventType)
    (stateKey : Option StateKey) (earlier : List EventId) : Pdu :=
  { Pdu.message eventId "!r:h" "@alice:h" with
    kind, stateKey, prevEvents := earlier }

def createdPdu : Pdu := chainedPdu "$create" .roomCreate (some "") []

def namedPdu : Pdu :=
  chainedPdu "$name" (.other "m.room.name") (some "") ["$create"]

def writtenPdu (eventId : EventId) (earlier : List EventId) : Pdu :=
  chainedPdu eventId (.other "m.room.message") none earlier

def unnamedState : StateEntries := [((.roomCreate, ""), "$create")]

def namedState : StateEntries :=
  unnamedState ++ [((.other "m.room.name", ""), "$name")]

def storedRoom (table : PduTable) (currentState : StateEntries)
    (tokenState : Nat → Option StateEntries) (ascending : Ascending table)
    (small : ∀ entry ∈ table, entry.1.signed < i64Max) : RoomSnapshot where
  table := table
  currentState := currentState
  tokenState := tokenState
  stateAtPdu := fun _ => none
  nonOutlierPdu := fun eventId =>
    (table.map Prod.snd).find? (fun pdu => pdu.eventId = eventId)
  outlierPdu := fun _ => none
  retainLazyMembers := id
  keychangeidUserid := []
  ascending := ascending
  small := small
  keyed := by
    intro eventId pdu found
    simpa using List.find?_some found

def forkedRoom : RoomSnapshot := storedRoom
    [(.normal 1, createdPdu), (.normal 2, namedPdu),
      (.normal 3, writtenPdu "$left" ["$name"]),
      (.normal 4, writtenPdu "$right" ["$name"])]
    namedState (fun _ => some unnamedState)
    (by unfold Ascending; decide) (by decide)

def namedRoom : RoomSnapshot := storedRoom
    [(.normal 1, createdPdu), (.normal 2, writtenPdu "$hello" ["$create"]),
      (.normal 3, namedPdu)]
    namedState (fun _ => some unnamedState)
    (by unfold Ascending; decide) (by decide)

def sinceTwo (currentCount : Nat) : SyncContext where
  syncingUser := "@bob:h"
  lastSyncEndCount := some 2
  currentCount := currentCount
  fullState := false
  timelineLimit := none
  lazyLoadOptions := false

theorem stateComplete_of_named :
    StateComplete StateRes.plainRuma namedRoom (sinceTwo 3) (fun _ => false)
      unnamedState := by
  refine (stateComplete_iff (fun _ => false) rfl rfl rfl rfl).mpr ?_
  intro entry member added
  have isName : entry = ((.other "m.room.name", ""), "$name") := by
    revert entry
    decide
  have fast : takesFastPath namedRoom (sinceTwo 3) 2 = false := by decide
  unfold Deliverable
  rw [fast, if_neg Bool.false_ne_true, isName]
  exact .inl ⟨(.normal 3, namedPdu), mem_cons_self, rfl, rfl⟩

theorem fork_hides_name :
    ¬ StateComplete StateRes.plainRuma forkedRoom (sinceTwo 4)
      (fun _ => false) unnamedState := by
  intro claimed
  have unlisted : "$name" ∉ (buildStateAndTimeline StateRes.plainRuma
      forkedRoom (sinceTwo 4) (fun _ => false)).events.map Pdu.eventId := by
    decide
  have unsent : "$name" ∉ (buildStateAndTimeline StateRes.plainRuma
      forkedRoom (sinceTwo 4) (fun _ => false)).stateEvents.map
        Pdu.eventId := by
    decide
  cases claimed ((.other "m.room.name", ""), "$name") (by decide)
    (by decide) with
  | inl inTimeline =>
      obtain ⟨pdu, member, isName⟩ := inTimeline
      exact unlisted (mem_map.mpr ⟨pdu, member, isName⟩)
  | inr inState =>
      obtain ⟨pdu, member, isName⟩ := inState
      exact unsent (mem_map.mpr ⟨pdu, member, isName⟩)

end ArcanaServer.Sync
