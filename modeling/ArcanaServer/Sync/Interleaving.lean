import ArcanaServer.Globals.Counter
import ArcanaServer.Library.Trace
import ArcanaServer.Library.Windows
import ArcanaServer.Sync.LoadTimeline
import Mathlib.Order.WithBot
import Mathlib.Data.Int.ConditionallyCompleteOrder
import Mathlib.Order.ConditionallyCompleteLattice.Basic

namespace ArcanaServer.Sync

open Library ArcanaServer.Matrix Function List

/-! Appends and sync requests, step by step.  An append holds the insert lock of
its room from the draw of its count until the event is written.  A request
reads the counter first and the rooms later, and takes no lock. -/

inductive RoomReading where
  | unread
  | probed
  | loaded (timeline : TimelinePdus)

structure Reading where
  lastSyncEndCount : Option Nat
  currentCount : Nat
  timelineLimit : Nat
  rooms : RoomId → RoomReading

structure SyncResponse where
  lastSyncEndCount : Option Nat
  nextBatch : Nat
  timelines : RoomId → TimelinePdus

/-- `since` is the token that the client holds. -/
structure SyncWorld where
  counter : Nat
  pduidPdu : RoomId → PduTable
  inserting : RoomId → Option (Nat × Pdu)
  since : Option Nat
  reading : Option Reading
  responses : List SyncResponse

/-- The steps of `append_pdu`, of other users of the counter and of the
request.  `probeRoom` and `streamRoom` are the two reads of `load_timeline`;
whether the user has joined since the last sync is found by other reads. -/
inductive SyncAction where
  | nextCount
  | takeCount (roomId : RoomId) (pdu : Pdu)
  | insertPdu (roomId : RoomId)
  | beginSync (timelineLimit : Nat)
  | probeRoom (roomId : RoomId) (joinedSinceLastSync : Bool)
  | streamRoom (roomId : RoomId) (joinedSinceLastSync : Bool)
  | abandonSync
  | respond

namespace TimelinePdus

def marked (timeline : TimelinePdus) (joinedSinceLastSync : Bool) :
    TimelinePdus :=
  { timeline with limited := timeline.limited || joinedSinceLastSync }

def filtered (timeline : TimelinePdus) (ignored : Pdu → Bool) :
    TimelinePdus :=
  { timeline with
    pdus := timeline.pdus.filter (fun entry => !ignored entry.2) }

end TimelinePdus

namespace Reading

variable (reading : Reading)

def startingCount : Option PduCount :=
  reading.lastSyncEndCount.map .normal

def endingCount : Option PduCount :=
  some (.normal reading.currentCount)

def setRoom (roomId : RoomId) (room : RoomReading) : Reading :=
  { reading with rooms := Function.update reading.rooms roomId room }

/-- The first read of an incremental sync; it may be the last one. -/
def probe (table : PduTable) (start : Nat) (joinedSinceLastSync : Bool) :
    RoomReading :=
  if (lastTimelineCount table).signed ≤ (start : Int) then
    .loaded (TimelinePdus.default.marked joinedSinceLastSync)
  else .probed

def stream (table : PduTable) (joinedSinceLastSync : Bool) : RoomReading :=
  .loaded ((takeTimeline
    (pduStream table reading.startingCount reading.endingCount)
    reading.timelineLimit).marked joinedSinceLastSync)

/-- The second read follows the first, or stands alone in an initial sync. -/
def streams (roomId : RoomId) : Bool :=
  match reading.lastSyncEndCount, reading.rooms roomId with
  | none, .unread => true
  | some _, .probed => true
  | _, _ => false

def timelineOf (roomId : RoomId) : TimelinePdus :=
  match reading.rooms roomId with
  | .loaded timeline => timeline
  | _ => .default

def isLoaded (roomId : RoomId) : Bool :=
  match reading.rooms roomId with
  | .loaded _ => true
  | _ => false

end Reading

section

variable (joined : List RoomId) (ignored : Pdu → Bool)

namespace SyncWorld

variable (world : SyncWorld)

def draw : SyncWorld :=
  { world with counter := nextCounter world.counter }

def takeCount (roomId : RoomId) (pdu : Pdu) : SyncWorld :=
  match world.inserting roomId with
  | some _ => world
  | none =>
      { world with
        counter := nextCounter world.counter
        inserting := Function.update world.inserting roomId
          (some (nextCounter world.counter, pdu)) }

def insertPdu (roomId : RoomId) : SyncWorld :=
  match world.inserting roomId with
  | none => world
  | some (count, pdu) =>
      { world with
        inserting := Function.update world.inserting roomId none
        pduidPdu := Function.update world.pduidPdu roomId
          (world.pduidPdu roomId ++ [(.normal count, pdu)]) }

def beginSync (timelineLimit : Nat) : SyncWorld :=
  { world with
    reading := some {
      lastSyncEndCount := world.since
      currentCount := world.counter
      timelineLimit
      rooms := fun _ => .unread } }

def probeRoom (roomId : RoomId) (joinedSinceLastSync : Bool) : SyncWorld :=
  match world.reading with
  | none => world
  | some reading =>
      match reading.lastSyncEndCount, reading.rooms roomId with
      | some start, .unread =>
          { world with
            reading := some (reading.setRoom roomId (Reading.probe
              (world.pduidPdu roomId) start joinedSinceLastSync)) }
      | _, _ => world

def streamRoom (roomId : RoomId) (joinedSinceLastSync : Bool) : SyncWorld :=
  match world.reading with
  | none => world
  | some reading =>
      if reading.streams roomId then
        { world with
          reading := some (reading.setRoom roomId (reading.stream
            (world.pduidPdu roomId) joinedSinceLastSync)) }
      else world

def respond : SyncWorld :=
  match world.reading with
  | none => world
  | some reading =>
      if joined.all reading.isLoaded then
        { world with
          reading := none
          since := some reading.currentCount
          responses := world.responses ++ [{
            lastSyncEndCount := reading.lastSyncEndCount
            nextBatch := reading.currentCount
            timelines := fun roomId =>
              (reading.timelineOf roomId).filtered ignored }] }
      else world

def step (action : SyncAction) : SyncWorld × Unit :=
  match action with
  | .nextCount => (world.draw, ())
  | .takeCount roomId pdu => (world.takeCount roomId pdu, ())
  | .insertPdu roomId => (world.insertPdu roomId, ())
  | .beginSync limit => (world.beginSync limit, ())
  | .probeRoom roomId joinedSince => (world.probeRoom roomId joinedSince, ())
  | .streamRoom roomId joinedSince =>
      (world.streamRoom roomId joinedSince, ())
  | .abandonSync => ({ world with reading := none }, ())
  | .respond => (world.respond joined ignored, ())

end SyncWorld

end

/-- The counts in a room are in order, and a count that is taken and not yet
written is greater than those before it. -/
structure TablesInv (world : SyncWorld) : Prop where
  ascending : ∀ roomId, Ascending (world.pduidPdu roomId)
  bounded : ∀ roomId, ∀ entry ∈ world.pduidPdu roomId,
    entry.1.signed ≤ (world.counter : Int)
  pending : ∀ roomId count pdu, world.inserting roomId = some (count, pdu) →
    count ≤ world.counter ∧
      ∀ entry ∈ world.pduidPdu roomId, entry.1.signed < (count : Int)

/-- No append of the room has a count up to `count` that is not written yet. -/
def NonePending (world : SyncWorld) (roomId : RoomId) (count : Nat) : Prop :=
  ∀ taken pdu, world.inserting roomId = some (taken, pdu) → count < taken

/-- What changes in a room from `before` on has a count that the counter has
not reached there. -/
structure Later (before after : SyncWorld) : Prop where
  counter : before.counter ≤ after.counter
  written : ∀ roomId count, NonePending before roomId count →
    ∀ entry ∈ after.pduidPdu roomId,
      entry ∈ before.pduidPdu roomId ∨ (count : Int) < entry.1.signed
  pending : ∀ roomId count, count ≤ before.counter →
    NonePending before roomId count → NonePending after roomId count

namespace TablesInv

variable {world : SyncWorld}

theorem draw (inv : TablesInv world) :
    TablesInv world.draw ∧ Later world world.draw := by
  refine ⟨⟨inv.ascending, ?_, ?_⟩, le_nextCounter _, ?_, ?_⟩
  · intro roomId entry member
    exact (inv.bounded roomId entry member).trans
      (Int.ofNat_le.mpr (le_nextCounter _))
  · intro roomId count pdu isPending
    obtain ⟨issued, above⟩ := inv.pending roomId count pdu isPending
    exact ⟨issued.trans (le_nextCounter _), above⟩
  · intro roomId count none entry member
    exact .inl member
  · intro roomId count _ none
    exact none

theorem takeCount (inv : TablesInv world) (roomId : RoomId) (pdu : Pdu)
    (fits : world.counter < u64Max) :
    TablesInv (world.takeCount roomId pdu) ∧
      Later world (world.takeCount roomId pdu) := by
  have next := nextCounter_of_lt fits
  unfold SyncWorld.takeCount
  cases locked : world.inserting roomId with
  | some holder =>
      exact ⟨inv, Nat.le_refl _, fun _ _ _ _ member => .inl member,
        fun _ _ _ none => none⟩
  | none =>
      refine ⟨⟨inv.ascending, ?_, ?_⟩, le_nextCounter _, ?_, ?_⟩
      · intro room entry member
        exact (inv.bounded room entry member).trans
          (Int.ofNat_le.mpr (le_nextCounter _))
      · intro room count taken isPending
        simp only at isPending
        by_cases isHere : room = roomId
        · subst isHere
          rw [update_self] at isPending
          cases isPending
          refine ⟨Nat.le_refl _, fun entry member => ?_⟩
          have bounded := inv.bounded room entry member
          omega
        · rw [update_of_ne isHere] at isPending
          obtain ⟨issued, above⟩ := inv.pending room count taken isPending
          exact ⟨issued.trans (le_nextCounter _), above⟩
      · intro room count none entry member
        exact .inl member
      · intro room count issued none taken event isPending
        simp only at isPending
        by_cases isHere : room = roomId
        · subst isHere
          rw [update_self] at isPending
          cases isPending
          omega
        · rw [update_of_ne isHere] at isPending
          exact none taken event isPending

theorem insertPdu (inv : TablesInv world) (roomId : RoomId) :
    TablesInv (world.insertPdu roomId) ∧
      Later world (world.insertPdu roomId) := by
  unfold SyncWorld.insertPdu
  cases locked : world.inserting roomId with
  | none =>
      exact ⟨inv, Nat.le_refl _, fun _ _ _ _ member => .inl member,
        fun _ _ _ none => none⟩
  | some holder =>
      obtain ⟨count, pdu⟩ := holder
      obtain ⟨issued, above⟩ := inv.pending roomId count pdu locked
      have members : ∀ room, ∀ entry ∈ update world.pduidPdu roomId
          (world.pduidPdu roomId ++ [(.normal count, pdu)]) room,
          entry ∈ world.pduidPdu room ∨
            (room = roomId ∧ entry = (.normal count, pdu)) := by
        intro room entry member
        by_cases isHere : room = roomId
        · subst isHere
          rw [update_self] at member
          simpa using member
        · rw [update_of_ne isHere] at member
          exact .inl member
      have lessPending : ∀ room taken event, update world.inserting
          roomId none room = some (taken, event) →
          room ≠ roomId ∧ world.inserting room = some (taken, event) := by
        intro room taken event isPending
        by_cases isHere : room = roomId
        · subst isHere
          rw [update_self] at isPending
          cases isPending
        · rw [update_of_ne isHere] at isPending
          exact ⟨isHere, isPending⟩
      refine ⟨⟨?_, ?_, ?_⟩, Nat.le_refl _, ?_, ?_⟩
      · intro room
        by_cases isHere : room = roomId
        · subst isHere
          simp only [update_self]
          refine pairwise_append.mpr ⟨inv.ascending room,
            pairwise_singleton _ _, ?_⟩
          intro entry member new isNew
          rw [mem_singleton.mp isNew]
          exact above entry member
        · simp only [update_of_ne isHere]
          exact inv.ascending room
      · intro room entry member
        rcases members room entry member with old | new
        · exact inv.bounded room entry old
        · rw [new.2]
          exact Int.ofNat_le.mpr issued
      · intro room taken event isPending
        obtain ⟨elsewhere, old⟩ := lessPending room taken event isPending
        obtain ⟨drawn, greater⟩ := inv.pending room taken event old
        refine ⟨drawn, fun entry member => ?_⟩
        rcases members room entry member with earlier | new
        · exact greater entry earlier
        · exact absurd new.1 elsewhere
      · intro room settled none entry member
        rcases members room entry member with old | new
        · exact .inl old
        · obtain ⟨rfl, rfl⟩ := new
          exact .inr (Int.ofNat_lt.mpr (none count pdu locked))
      · intro room settled _ none taken event isPending
        exact none taken event (lessPending room taken event isPending).2

end TablesInv

def bound : Option Nat → WithBot Int
  | none => ⊥
  | some count => ((count : Int) : WithBot Int)

def position (count : PduCount) : WithBot Int := (count.signed : WithBot Int)

theorem bound_lt_iff {since : Option Nat} {count : PduCount} :
    bound since < position count ↔ After (since.map .normal) count := by
  cases since with
  | none =>
      refine iff_of_true (WithBot.bot_lt_coe _) ?_
      rintro start ⟨⟩
  | some start =>
      unfold bound position
      rw [WithBot.coe_lt_coe]
      constructor
      · rintro later _ ⟨⟩
        exact later
      · intro after
        exact after (.normal start) rfl

/-- The timeline lists what lies between the token and the current count, but
for ignored events, or it is limited.  This does not change any more. -/
structure Settled (ignored : Pdu → Bool) (world : SyncWorld)
    (roomId : RoomId) (since : Option Nat) (currentCount : Nat)
    (timeline : TimelinePdus) : Prop where
  sound : ∀ entry ∈ timeline.pdus, bound since < position entry.1 ∧
    entry.1.signed ≤ (currentCount : Int)
  complete : ∀ entry ∈ world.pduidPdu roomId, ignored entry.2 = false →
    bound since < position entry.1 → entry.1.signed ≤ (currentCount : Int) →
    entry ∈ timeline.pdus ∨ timeline.limited = true
  pending : NonePending world roomId currentCount

namespace Settled

variable {ignored : Pdu → Bool} {before after : SyncWorld} {roomId : RoomId}
  {since : Option Nat} {currentCount : Nat} {timeline : TimelinePdus}

theorem later (settled : Settled ignored before roomId since currentCount
      timeline) (issued : currentCount ≤ before.counter)
    (advances : Later before after) :
    Settled ignored after roomId since currentCount timeline := by
  refine ⟨settled.sound, ?_, ?_⟩
  · intro entry member visible lower upper
    cases advances.written roomId currentCount settled.pending entry
      member with
    | inl old => exact settled.complete entry old visible lower upper
    | inr new => exact absurd upper (not_le_of_gt new)
  · exact advances.pending roomId currentCount issued settled.pending

theorem filtered (settled : Settled (fun _ => false) before roomId since
      currentCount timeline) :
    Settled ignored before roomId since currentCount
      (timeline.filtered ignored) := by
  refine ⟨?_, ?_, settled.pending⟩
  · intro entry member
    exact settled.sound entry (mem_filter.mp member).1
  · intro entry member visible lower upper
    rcases settled.complete entry member rfl lower upper with listed | limited
    · refine .inl (mem_filter.mpr ⟨listed, ?_⟩)
      rw [visible]
      rfl
    · exact .inr limited

theorem marked (settled : Settled ignored before roomId since currentCount
      timeline) (joinedSinceLastSync : Bool) :
    Settled ignored before roomId since currentCount
      (timeline.marked joinedSinceLastSync) := by
  refine ⟨settled.sound, ?_, settled.pending⟩
  intro entry member visible lower upper
  rcases settled.complete entry member visible lower upper with listed | limited
  · exact .inl listed
  · right
    change (timeline.limited || joinedSinceLastSync) = true
    rw [limited]
    rfl

theorem stream (tables : TablesInv before) (limit : Nat)
    (none : NonePending before roomId currentCount) :
    Settled ignored before roomId since currentCount
      (takeTimeline (pduStream (before.pduidPdu roomId) (since.map .normal)
        (some (.normal currentCount))) limit) := by
  have isMember : ∀ entry, entry ∈ pduStream (before.pduidPdu roomId)
      (since.map .normal) (some (.normal currentCount)) ↔
        entry ∈ before.pduidPdu roomId ∧ After (since.map .normal) entry.1 ∧
          entry.1.signed ≤ (currentCount : Int) :=
    fun entry => mem_pduStream (tables.ascending roomId)
  refine ⟨?_, ?_, none⟩
  · intro entry member
    obtain ⟨_, lower, upper⟩ := (isMember entry).mp (mem_takeTimeline member)
    exact ⟨bound_lt_iff.mpr lower, upper⟩
  · intro entry member _ lower upper
    exact takeTimeline_complete
      ((isMember entry).mpr ⟨member, bound_lt_iff.mp lower, upper⟩)

theorem probe (tables : TablesInv before) {start : Nat}
    (small : before.counter < i64Max)
    (nothing : (lastTimelineCount (before.pduidPdu roomId)).signed ≤
      (start : Int))
    (none : NonePending before roomId currentCount) :
    Settled ignored before roomId (some start) currentCount
      TimelinePdus.default := by
  refine ⟨?_, ?_, none⟩
  · intro entry member
    cases member
  · intro entry member _ lower _
    have later : (start : Int) < entry.1.signed :=
      bound_lt_iff.mp lower (.normal start) rfl
    have bounded := tables.bounded roomId entry member
    have latest := le_lastTimelineCount (tables.ascending roomId) member
      (by omega)
    omega

end Settled

structure ReadingInv (world : SyncWorld) (reading : Reading) : Prop where
  token : reading.lastSyncEndCount = world.since
  ordered : bound world.since ≤ bound (some reading.currentCount)
  issued : reading.currentCount ≤ world.counter
  rooms : ∀ roomId timeline, reading.rooms roomId = .loaded timeline →
    Settled (fun _ => false) world roomId reading.lastSyncEndCount
      reading.currentCount timeline

def SyncResponse.lower (response : SyncResponse) : WithBot Int :=
  bound response.lastSyncEndCount

def SyncResponse.upper (response : SyncResponse) : WithBot Int :=
  bound (some response.nextBatch)

structure SyncInv (joined : List RoomId) (ignored : Pdu → Bool)
    (start : Option Nat) (world : SyncWorld) : Prop where
  tables : TablesInv world
  token : bound world.since ≤ bound (some world.counter)
  reading : ∀ reading, world.reading = some reading → ReadingInv world reading
  chain : Consecutive SyncResponse.lower SyncResponse.upper (bound start)
    world.responses (bound world.since)
  issued : ∀ response ∈ world.responses, response.nextBatch ≤ world.counter
  responses : ∀ response ∈ world.responses, ∀ roomId ∈ joined,
    Settled ignored world roomId response.lastSyncEndCount response.nextBatch
      (response.timelines roomId)

structure SameRequest (before after : SyncWorld) : Prop where
  since : after.since = before.since
  reading : after.reading = before.reading
  responses : after.responses = before.responses

theorem sameRequest_takeCount (world : SyncWorld) (roomId : RoomId)
    (pdu : Pdu) : SameRequest world (world.takeCount roomId pdu) := by
  unfold SyncWorld.takeCount
  split
  · exact ⟨rfl, rfl, rfl⟩
  · exact ⟨rfl, rfl, rfl⟩

theorem sameRequest_insertPdu (world : SyncWorld) (roomId : RoomId) :
    SameRequest world (world.insertPdu roomId) := by
  unfold SyncWorld.insertPdu
  split
  · exact ⟨rfl, rfl, rfl⟩
  · exact ⟨rfl, rfl, rfl⟩

namespace SyncInv

variable {joined : List RoomId} {ignored : Pdu → Bool} {start : Option Nat}
  {world after : SyncWorld}

theorem advance (inv : SyncInv joined ignored start world)
    (advances : TablesInv after ∧ Later world after)
    (sameRequest : SameRequest world after) :
    SyncInv joined ignored start after := by
  obtain ⟨tables, later⟩ := advances
  obtain ⟨sameSince, sameReading, sameResponses⟩ := sameRequest
  have grows : bound (some world.counter) ≤ bound (some after.counter) :=
    WithBot.coe_le_coe.mpr (Int.ofNat_le.mpr later.counter)
  refine ⟨tables, ?_, ?_, ?_, ?_, ?_⟩
  · rw [sameSince]
    exact inv.token.trans grows
  · intro reading isReading
    obtain ⟨token, ordered, issued, rooms⟩ :=
      inv.reading reading (sameReading ▸ isReading)
    refine ⟨sameSince ▸ token, sameSince ▸ ordered,
      issued.trans later.counter, ?_⟩
    intro roomId timeline isLoaded
    exact (rooms roomId timeline isLoaded).later issued later
  · rw [sameSince, sameResponses]
    exact inv.chain
  · rw [sameResponses]
    intro response member
    exact (inv.issued response member).trans later.counter
  · rw [sameResponses]
    intro response member roomId isJoined
    exact (inv.responses response member roomId isJoined).later
      (inv.issued response member) later

theorem withReading (inv : SyncInv joined ignored start world)
    {reading : Option Reading}
    (holds : ∀ current, reading = some current → ReadingInv world current) :
    SyncInv joined ignored start { world with reading } := by
  refine ⟨⟨inv.tables.ascending, inv.tables.bounded, inv.tables.pending⟩,
    inv.token, ?_, inv.chain, inv.issued, ?_⟩
  · intro current isReading
    obtain ⟨token, ordered, issued, rooms⟩ := holds current isReading
    refine ⟨token, ordered, issued, fun roomId timeline isLoaded => ?_⟩
    obtain ⟨sound, complete, pending⟩ := rooms roomId timeline isLoaded
    exact ⟨sound, complete, pending⟩
  · intro response member roomId isJoined
    obtain ⟨sound, complete, pending⟩ :=
      inv.responses response member roomId isJoined
    exact ⟨sound, complete, pending⟩

theorem beginSync (inv : SyncInv joined ignored start world) (limit : Nat) :
    SyncInv joined ignored start (world.beginSync limit) := by
  refine inv.withReading ?_
  rintro _ ⟨⟩
  refine ⟨rfl, inv.token, Nat.le_refl _, ?_⟩
  rintro roomId timeline ⟨⟩

theorem setRoom {reading : Reading} (held : ReadingInv world reading)
    {roomId : RoomId} {room : RoomReading}
    (settles : ∀ timeline, room = .loaded timeline →
      Settled (fun _ => false) world roomId reading.lastSyncEndCount
        reading.currentCount timeline) :
    ReadingInv world (reading.setRoom roomId room) := by
  refine ⟨held.token, held.ordered, held.issued, ?_⟩
  intro other timeline isLoaded
  by_cases isHere : other = roomId
  · subst isHere
    simp only [Reading.setRoom, update_self] at isLoaded
    exact settles timeline isLoaded
  · simp only [Reading.setRoom, update_of_ne isHere] at isLoaded
    exact held.rooms other timeline isLoaded

theorem probeRoom (inv : SyncInv joined ignored start world)
    (roomId : RoomId) (joinedSince : Bool)
    (permitted : ∀ reading token, world.reading = some reading →
      reading.lastSyncEndCount = some token → world.counter < i64Max ∧
        ((lastTimelineCount (world.pduidPdu roomId)).signed ≤ (token : Int) →
          NonePending world roomId reading.currentCount)) :
    SyncInv joined ignored start (world.probeRoom roomId joinedSince) := by
  unfold SyncWorld.probeRoom
  cases isReading : world.reading with
  | none => exact inv
  | some reading =>
      have held := inv.reading reading isReading
      simp only
      split
      · rename_i token isToken _
        obtain ⟨small, none⟩ := permitted reading token isReading isToken
        refine inv.withReading ?_
        rintro _ ⟨⟩
        refine setRoom held ?_
        intro timeline isLoaded
        unfold Reading.probe at isLoaded
        split at isLoaded
        · rename_i nothing
          cases isLoaded
          rw [isToken]
          exact (Settled.probe inv.tables small nothing
            (none nothing)).marked joinedSince
        · cases isLoaded
      · exact inv

theorem streamRoom (inv : SyncInv joined ignored start world)
    (roomId : RoomId) (joinedSince : Bool)
    (permitted : ∀ reading, world.reading = some reading →
      NonePending world roomId reading.currentCount) :
    SyncInv joined ignored start (world.streamRoom roomId joinedSince) := by
  unfold SyncWorld.streamRoom
  cases isReading : world.reading with
  | none => exact inv
  | some reading =>
      simp only
      split
      · refine inv.withReading ?_
        rintro _ ⟨⟩
        refine setRoom (inv.reading reading isReading) ?_
        rintro timeline ⟨⟩
        exact (Settled.stream inv.tables reading.timelineLimit
          (permitted reading isReading)).marked joinedSince
      · exact inv

theorem respond (inv : SyncInv joined ignored start world) :
    SyncInv joined ignored start (world.respond joined ignored) := by
  unfold SyncWorld.respond
  cases isReading : world.reading with
  | none => exact inv
  | some reading =>
      obtain ⟨token, ordered, issued, rooms⟩ := inv.reading reading isReading
      simp only
      split
      · rename_i allLoaded
        refine ⟨⟨inv.tables.ascending, inv.tables.bounded,
          inv.tables.pending⟩, ?_, ?_, ?_, ?_, ?_⟩
        · exact WithBot.coe_le_coe.mpr (Int.ofNat_le.mpr issued)
        · rintro _ ⟨⟩
        · exact .snoc _ inv.chain (congrArg bound token) ordered
        · exact forall_mem_snoc inv.issued issued
        · intro response member roomId isJoined
          rcases mem_append.mp member with old | new
          · obtain ⟨sound, complete, pending⟩ :=
              inv.responses response old roomId isJoined
            exact ⟨sound, complete, pending⟩
          · rw [mem_singleton.mp new]
            have loaded := all_eq_true.mp allLoaded roomId isJoined
            unfold Reading.isLoaded at loaded
            cases isRoom : reading.rooms roomId with
            | unread | probed =>
                rw [isRoom] at loaded
                cases loaded
            | loaded timeline =>
                simp only [Reading.timelineOf, isRoom]
                obtain ⟨sound, complete, pending⟩ : Settled ignored world
                    roomId reading.lastSyncEndCount reading.currentCount
                      (timeline.filtered ignored) :=
                  (rooms roomId timeline isRoom).filtered
                exact ⟨sound, complete, pending⟩
      · exact inv

end SyncInv

/-- The request meets no append of the room between the draw of its count, up
to the token of the response, and its write. -/
def ReadsSettled (entry : Entry SyncWorld SyncAction Unit) : Prop :=
  match entry.input with
  | .probeRoom roomId _ =>
      ∀ reading token, entry.before.reading = some reading →
        reading.lastSyncEndCount = some token →
        entry.before.counter < i64Max ∧
          ((lastTimelineCount (entry.before.pduidPdu roomId)).signed ≤
              (token : Int) →
            NonePending entry.before roomId reading.currentCount)
  | .streamRoom roomId _ =>
      ∀ reading, entry.before.reading = some reading →
        NonePending entry.before roomId reading.currentCount
  | .takeCount _ _ => entry.before.counter < u64Max
  | _ => True

/-- Every event that the chain of responses has passed is in the timeline of
exactly one response, or in the range of a limited one. -/
def NoneLost (joined : List RoomId) (ignored : Pdu → Bool)
    (start : Option Nat) (world : SyncWorld) : Prop :=
  ∀ roomId ∈ joined, ∀ entry ∈ world.pduidPdu roomId,
    ignored entry.2 = false → bound start < position entry.1 →
    position entry.1 ≤ bound world.since →
    (∃! index : Nat, ∃ response, world.responses[index]? = some response ∧
        entry ∈ (response.timelines roomId).pdus) ∨
      ∃ response ∈ world.responses,
        Within SyncResponse.lower SyncResponse.upper response
            (position entry.1) ∧
          (response.timelines roomId).limited = true

section

variable {joined : List RoomId} {ignored : Pdu → Bool} {start : Option Nat}

section

variable {world : SyncWorld} (inv : SyncInv joined ignored start world)
include inv

theorem SyncInv.step (action : SyncAction) (settled : ReadsSettled
      (entryOf (SyncWorld.step joined ignored) world action)) :
    SyncInv joined ignored start
      (SyncWorld.step joined ignored world action).1 := by
  cases action with
  | nextCount => exact inv.advance inv.tables.draw ⟨rfl, rfl, rfl⟩
  | takeCount roomId pdu =>
      exact inv.advance (inv.tables.takeCount roomId pdu settled)
        (sameRequest_takeCount world roomId pdu)
  | insertPdu roomId =>
      exact inv.advance (inv.tables.insertPdu roomId)
        (sameRequest_insertPdu world roomId)
  | beginSync limit => exact inv.beginSync limit
  | probeRoom roomId joinedSince =>
      exact inv.probeRoom roomId joinedSince settled
  | streamRoom roomId joinedSince =>
      exact inv.streamRoom roomId joinedSince settled
  | abandonSync => exact inv.withReading (fun _ isNone => nomatch isNone)
  | respond => exact inv.respond

theorem SyncInv.noneLost : NoneLost joined ignored start world := by
  intro roomId isJoined entry member visible lower upper
  refine inv.chain.delivered_once lower upper ?_ ?_
  · intro response isResponse delivered
    obtain ⟨after, before⟩ :=
      (inv.responses response isResponse roomId isJoined).sound entry delivered
    exact ⟨after, WithBot.coe_le_coe.mpr before⟩
  · intro response isResponse within
    exact (inv.responses response isResponse roomId isJoined).complete entry
      member visible within.1 (WithBot.coe_le_coe.mp within.2)

end

structure Fresh (world : SyncWorld) : Prop where
  tables : TablesInv world
  token : bound world.since ≤ bound (some world.counter)
  reading : world.reading = none
  responses : world.responses = []

theorem Fresh.inv {world : SyncWorld} (fresh : Fresh world) :
    SyncInv joined ignored world.since world := by
  refine ⟨fresh.tables, fresh.token, ?_, ?_, ?_, ?_⟩
  · intro reading isReading
    rw [fresh.reading] at isReading
    cases isReading
  · rw [fresh.responses]
    exact .nil
  · rw [fresh.responses]
    rintro response ⟨⟩
  · rw [fresh.responses]
    rintro response ⟨⟩

/-- If the reads of the requests meet no unwritten append, no event is lost. -/
theorem noneLost_of_readsSettled {first world : SyncWorld}
    {history : List (Entry SyncWorld SyncAction Unit)} (fresh : Fresh first)
    (reaches : Reaches (SyncWorld.step joined ignored) first history world)
    (settled : ∀ entry ∈ history, ReadsSettled entry) :
    NoneLost joined ignored first.since world := by
  have inv : SyncInv joined ignored first.since world :=
    Reaches.invariant (fun _ world => SyncInv joined ignored first.since world)
      fresh.inv
      (fun _ world action inv settled => inv.step action settled)
      reaches (Always.of_forall_mem settled)
  exact inv.noneLost

end

def readsIdle (entry : Entry SyncWorld SyncAction Unit) : Bool :=
  match entry.input with
  | .probeRoom roomId _ =>
      (entry.before.inserting roomId).isNone &&
        decide (entry.before.counter < i64Max)
  | .streamRoom roomId _ => (entry.before.inserting roomId).isNone
  | .takeCount _ _ => decide (entry.before.counter < u64Max)
  | _ => true

theorem nonePending_of_isNone {world : SyncWorld} {roomId : RoomId}
    (idle : (world.inserting roomId).isNone = true) (count : Nat) :
    NonePending world roomId count := by
  intro taken pdu isPending
  rw [isPending] at idle
  cases idle

theorem readsSettled_of_idle {entry : Entry SyncWorld SyncAction Unit}
    (idle : readsIdle entry = true) : ReadsSettled entry := by
  unfold readsIdle at idle
  unfold ReadsSettled
  split at idle
  · obtain ⟨isNone, small⟩ := Bool.and_eq_true_iff.mp idle
    intro reading token _ _
    exact ⟨of_decide_eq_true small, fun _ => nonePending_of_isNone isNone _⟩
  · intro reading _
    exact nonePending_of_isNone idle _
  · exact of_decide_eq_true idle
  · trivial

def plainPdu (eventId : EventId) : Pdu := Pdu.message eventId "!r:h" "@alice:h"

def quietWorld : SyncWorld where
  counter := 0
  pduidPdu := fun _ => []
  inserting := fun _ => none
  since := none
  reading := none
  responses := []

theorem quietWorld_fresh : Fresh quietWorld := by
  refine ⟨⟨?_, ?_, ?_⟩, bot_le, rfl, rfl⟩
  · intro roomId
    exact List.Pairwise.nil
  · rintro roomId entry ⟨⟩
  · rintro roomId count pdu ⟨⟩

def firstSync : List SyncAction :=
  [.takeCount "!r:h" (plainPdu "$first"), .insertPdu "!r:h", .beginSync 10,
    .streamRoom "!r:h" true, .respond]

def nextSync : List SyncAction :=
  [.beginSync 10, .probeRoom "!r:h" false, .streamRoom "!r:h" false, .respond]

def runSync (actions : List SyncAction) :
    List (Entry SyncWorld SyncAction Unit) × SyncWorld :=
  run (SyncWorld.step ["!r:h"] (fun _ => false)) quietWorld actions

theorem noneLost_of_ordered_reads :
    NoneLost ["!r:h"] (fun _ => false) none
      (runSync (firstSync ++ [.takeCount "!r:h" (plainPdu "$second"),
        .insertPdu "!r:h"] ++ nextSync)).2 := by
  refine noneLost_of_readsSettled quietWorld_fresh (reaches_run _ _ _) ?_
  intro entry member
  apply readsSettled_of_idle
  revert entry
  decide +kernel

def lateWrite : List SyncAction :=
  firstSync ++ [.takeCount "!r:h" (plainPdu "$second")] ++ nextSync ++
    [.insertPdu "!r:h"] ++ nextSync

theorem lateWrite_loses_event :
    ¬ NoneLost ["!r:h"] (fun _ => false) none (runSync lateWrite).2 := by
  intro claimed
  have unlisted : ∀ response ∈ (runSync lateWrite).2.responses,
      PduCount.normal 2 ∉ (response.timelines "!r:h").pdus.map Prod.fst := by
    decide +kernel
  have limited : ∀ response ∈ (runSync lateWrite).2.responses,
      (response.timelines "!r:h").limited = true →
        response.nextBatch = 1 := by
    decide +kernel
  have written : (PduCount.normal 2, plainPdu "$second") ∈
      (runSync lateWrite).2.pduidPdu "!r:h" :=
    mem_cons_of_mem _ mem_cons_self
  have passed : position (.normal 2) ≤ bound (runSync lateWrite).2.since :=
    le_refl _
  cases claimed "!r:h" mem_cons_self _ written rfl
    (WithBot.bot_lt_coe _) passed with
  | inl once =>
      obtain ⟨index, ⟨response, isResponse, listed⟩, _⟩ := once
      exact unlisted response (mem_of_getElem? isResponse)
        (mem_map_of_mem listed)
  | inr inLimited =>
      obtain ⟨response, isResponse, within, isLimited⟩ := inLimited
      have upper := within.2
      unfold SyncResponse.upper at upper
      rw [limited response isResponse isLimited] at upper
      exact absurd upper (by decide)

end ArcanaServer.Sync
