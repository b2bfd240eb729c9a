import ArcanaServer.Globals.Counter
import ArcanaServer.Library.Trace
import ArcanaServer.Matrix.Event
import Mathlib.Logic.Function.Basic

namespace ArcanaServer.Sync

open Library ArcanaServer.Matrix List

/-! To-device events and sync requests, step by step.  Adding an event draws its
count first and writes the row later.  A build of a response reads the counter
first; then the rows of the last response are removed and the new ones are read,
in whatever order. -/

abbrev DeviceOf := UserId × String

structure ToDeviceRow where
  target : DeviceOf
  count : Nat
  eventType : String
  sender : UserId
  content : Json

/-- A call of `build_sync_events` that is under way. -/
structure ToDeviceBuild where
  device : DeviceOf
  lastSyncEndCount : Option Nat
  currentCount : Nat
  removed : Bool
  toDeviceEvents : Option (List ToDeviceRow)

/-- What the client has sent and received.  A token is what it parses to. -/
inductive ToDeviceExchange where
  | requested (device : DeviceOf) (since : Option Nat)
  | answered (device : DeviceOf) (nextBatch : Nat) (toDevice : List ToDeviceRow)

/-- The exchanges are listed with the newest first; `deleted` is what the syncs
have deleted. -/
structure ToDeviceWorld where
  counter : Nat
  todeviceidEvents : List ToDeviceRow
  adding : List ToDeviceRow
  builds : Nat → Option ToDeviceBuild
  exchanges : List ToDeviceExchange
  deleted : List ToDeviceRow

/-- `rebuild` is the second call of `build_sync_events` after an empty response;
`abandon` is a request whose connection is closed. -/
inductive ToDeviceAction where
  | nextCount
  | drawCount (target : DeviceOf) (eventType : String) (sender : UserId)
      (content : Json)
  | putEvent (count : Nat)
  | request (id : Nat) (device : DeviceOf) (since : Option Nat)
  | removeEvents (id : Nat)
  | readEvents (id : Nat)
  | rebuild (id : Nat)
  | respond (id : Nat)
  | abandon (id : Nat)

namespace ToDeviceBuild

def reads (build : ToDeviceBuild) (row : ToDeviceRow) : Bool :=
  row.target == build.device && decide (build.lastSyncEndCount.elim 0
      (fun since => min (since + 1) u64Max) ≤ row.count) &&
    decide (row.count ≤ build.currentCount)

def removes (build : ToDeviceBuild) (row : ToDeviceRow) : Bool :=
  row.target == build.device &&
    decide (row.count ≤ build.lastSyncEndCount.getD u64Max)

def finished (build : ToDeviceBuild) : Option (List ToDeviceRow) :=
  if build.removed then build.toDeviceEvents else none

end ToDeviceBuild

namespace ToDeviceWorld

def setBuild (world : ToDeviceWorld) (id : Nat) (build : Option ToDeviceBuild) :
    ToDeviceWorld :=
  { world with builds := Function.update world.builds id build }

def drawCount (world : ToDeviceWorld) (target : DeviceOf)
    (eventType : String) (sender : UserId) (content : Json) :
    ToDeviceWorld :=
  let row : ToDeviceRow :=
    { target, count := nextCounter world.counter, eventType, sender, content }
  { world with
    counter := nextCounter world.counter
    adding := row :: world.adding }

def putEvent (world : ToDeviceWorld) (count : Nat) : ToDeviceWorld :=
  { world with
    todeviceidEvents := world.todeviceidEvents ++
      world.adding.filter (fun row => row.count == count)
    adding := world.adding.filter (fun row => row.count != count) }

def startBuild (world : ToDeviceWorld) (id : Nat) (device : DeviceOf)
    (since : Option Nat) : ToDeviceWorld :=
  world.setBuild id (some {
    device
    lastSyncEndCount := since
    currentCount := world.counter
    removed := false
    toDeviceEvents := none })

def request (world : ToDeviceWorld) (id : Nat) (device : DeviceOf)
    (since : Option Nat) : ToDeviceWorld :=
  if (world.builds id).isSome then world
  else
    { world.startBuild id device since with
      exchanges := .requested device since :: world.exchanges }

def removeEvents (world : ToDeviceWorld) (id : Nat) : ToDeviceWorld :=
  match world.builds id with
  | none => world
  | some build =>
      { world.setBuild id (some { build with removed := true }) with
        todeviceidEvents := world.todeviceidEvents.filter
          (fun row => !build.removes row)
        deleted := world.todeviceidEvents.filter build.removes ++
          world.deleted }

def readEvents (world : ToDeviceWorld) (id : Nat) : ToDeviceWorld :=
  match world.builds id with
  | none => world
  | some build =>
      world.setBuild id (some { build with
        toDeviceEvents := some (world.todeviceidEvents.filter build.reads) })

def rebuild (world : ToDeviceWorld) (id : Nat) : ToDeviceWorld :=
  match world.builds id with
  | none => world
  | some build =>
      match build.finished with
      | some [] => world.startBuild id build.device build.lastSyncEndCount
      | _ => world

def respond (world : ToDeviceWorld) (id : Nat) : ToDeviceWorld :=
  match world.builds id with
  | none => world
  | some build =>
      match build.finished with
      | none => world
      | some events =>
          { world.setBuild id none with
            exchanges := .answered build.device build.currentCount events ::
              world.exchanges }

def step (world : ToDeviceWorld) (action : ToDeviceAction) :
    ToDeviceWorld × Unit :=
  match action with
  | .nextCount => ({ world with counter := nextCounter world.counter }, ())
  | .drawCount target eventType sender content =>
      (world.drawCount target eventType sender content, ())
  | .putEvent count => (world.putEvent count, ())
  | .request id device since => (world.request id device since, ())
  | .removeEvents id => (world.removeEvents id, ())
  | .readEvents id => (world.readEvents id, ())
  | .rebuild id => (world.rebuild id, ())
  | .respond id => (world.respond id, ())
  | .abandon id => (world.setBuild id none, ())

end ToDeviceWorld

/-- An earlier response to the device held the event, and the client has later
sent its token, or a later one. -/
def Acknowledged (exchanges : List ToDeviceExchange) (row : ToDeviceRow) :
    Prop :=
  ∃ newer older since nextBatch events,
    exchanges = newer ++ .requested row.target (some since) :: older ∧
    .answered row.target nextBatch events ∈ older ∧
    row ∈ events ∧ nextBatch ≤ since

def AtLeastOnce (world : ToDeviceWorld) : Prop :=
  ∀ row ∈ world.deleted, Acknowledged world.exchanges row

def ToDeviceExchange.issues (device : DeviceOf) (since : Nat) :
    ToDeviceExchange → Bool
  | .answered other nextBatch _ => other == device && nextBatch == since
  | .requested _ _ => false

namespace ToDeviceWorld

def settled (world : ToDeviceWorld) (device : DeviceOf) : Bool :=
  world.adding.all (fun row => row.target != device)

def issued (world : ToDeviceWorld) (device : DeviceOf) (since : Nat) : Bool :=
  world.exchanges.any (ToDeviceExchange.issues device since)

def orderly (world : ToDeviceWorld) : ToDeviceAction → Bool
  | .request _ device since =>
      world.settled device && since.all (world.issued device)
  | .rebuild id =>
      (world.builds id).all (fun build => world.settled build.device)
  | .removeEvents id =>
      (world.builds id).all (fun build => build.lastSyncEndCount.isSome ||
        world.todeviceidEvents.all (fun row => row.target != build.device))
  | .drawCount _ _ _ _ => decide (world.counter < u64Max)
  | _ => true

structure Fresh (world : ToDeviceWorld) : Prop where
  adding : world.adding = []
  builds : ∀ id, world.builds id = none
  exchanges : world.exchanges = []
  deleted : world.deleted = []

end ToDeviceWorld

def DeliveredBy (exchanges : List ToDeviceExchange) (row : ToDeviceRow)
    (upTo : Nat) : Prop :=
  ∃ nextBatch events, .answered row.target nextBatch events ∈ exchanges ∧
    row ∈ events ∧ nextBatch ≤ upTo

/-- `Acknowledged` with the token that acknowledges. -/
def AcknowledgedBy (exchanges : List ToDeviceExchange) (row : ToDeviceRow)
    (since : Nat) : Prop :=
  ∃ newer older, exchanges =
      newer ++ .requested row.target (some since) :: older ∧
    DeliveredBy older row since

structure ToDeviceBuild.Sound (build : ToDeviceBuild)
    (world : ToDeviceWorld) : Prop where
  counted : build.currentCount ≤ world.counter
  since_le : ∀ since, build.lastSyncEndCount = some since →
    since ≤ build.currentCount
  acknowledges : ∀ since, build.lastSyncEndCount = some since →
    ∀ row ∈ world.todeviceidEvents, row.target = build.device →
      row.count ≤ since → AcknowledgedBy world.exchanges row since
  holds : ∀ events, build.toDeviceEvents = some events →
    ∀ row ∈ world.todeviceidEvents, row.target = build.device →
      row.count ≤ build.currentCount →
      (∀ since, build.lastSyncEndCount = some since → since < row.count) →
      row ∈ events
  ahead : ∀ row ∈ world.adding, row.target = build.device →
    build.currentCount < row.count

structure AnswerSound (device : DeviceOf) (nextBatch : Nat)
    (world : ToDeviceWorld) : Prop where
  counted : nextBatch ≤ world.counter
  ahead : ∀ row ∈ world.adding, row.target = device → nextBatch < row.count
  delivered : ∀ row ∈ world.todeviceidEvents, row.target = device →
    row.count ≤ nextBatch → DeliveredBy world.exchanges row nextBatch

structure ToDeviceInv (world : ToDeviceWorld) : Prop where
  builds : ∀ id build, world.builds id = some build → build.Sound world
  answered : ∀ device nextBatch events,
    ToDeviceExchange.answered device nextBatch events ∈ world.exchanges →
    AnswerSound device nextBatch world
  deleted : AtLeastOnce world

section

variable {exchanges : List ToDeviceExchange} {row : ToDeviceRow}
  {since upTo : Nat}

theorem DeliveredBy.later (delivered : DeliveredBy exchanges row upTo)
    (newer : List ToDeviceExchange) :
    DeliveredBy (newer ++ exchanges) row upTo := by
  obtain ⟨nextBatch, events, answered, member, le⟩ := delivered
  exact ⟨nextBatch, events, mem_append_right _ answered, member, le⟩

theorem DeliveredBy.mono (delivered : DeliveredBy exchanges row since)
    (le : since ≤ upTo) : DeliveredBy exchanges row upTo := by
  obtain ⟨nextBatch, events, answered, member, earlier⟩ := delivered
  exact ⟨nextBatch, events, answered, member, Nat.le_trans earlier le⟩

namespace AcknowledgedBy

theorem later (acknowledged : AcknowledgedBy exchanges row since)
    (newer : List ToDeviceExchange) :
    AcknowledgedBy (newer ++ exchanges) row since := by
  obtain ⟨between, older, same, delivered⟩ := acknowledged
  exact ⟨newer ++ between, older, by rw [same, append_assoc], delivered⟩

theorem acknowledged (by_ : AcknowledgedBy exchanges row since) :
    Acknowledged exchanges row := by
  obtain ⟨newer, older, same, nextBatch, events, answered, member, le⟩ := by_
  exact ⟨newer, older, since, nextBatch, events, same, answered, member, le⟩

theorem deliveredBy (by_ : AcknowledgedBy exchanges row since) :
    DeliveredBy exchanges row since := by
  obtain ⟨newer, older, same, delivered⟩ := by_
  rw [same, append_cons]
  exact delivered.later _

end AcknowledgedBy

theorem Acknowledged.later (acknowledged : Acknowledged exchanges row)
    (newer : List ToDeviceExchange) :
    Acknowledged (newer ++ exchanges) row := by
  obtain ⟨between, older, since, nextBatch, events, same, rest⟩ := acknowledged
  exact ⟨newer ++ between, older, since, nextBatch, events,
    by rw [same, append_assoc], rest⟩

end

/-- The response of a build, or one before it, holds every row up to its token
that is still there. -/
theorem ToDeviceBuild.Sound.delivers {build : ToDeviceBuild}
    {world : ToDeviceWorld} {events : List ToDeviceRow} {row : ToDeviceRow}
    (sound : build.Sound world) (read : build.toDeviceEvents = some events)
    (stored : row ∈ world.todeviceidEvents) (target : row.target = build.device)
    (le : row.count ≤ build.currentCount) :
    DeliveredBy (.answered build.device build.currentCount events ::
      world.exchanges) row build.currentCount := by
  by_cases before : ∃ since, build.lastSyncEndCount = some since ∧
      row.count ≤ since
  · obtain ⟨since, token, old⟩ := before
    have earlier :=
      (sound.acknowledges since token row stored target old).deliveredBy
    exact (earlier.mono (sound.since_le since token)).later [_]
  · refine ⟨build.currentCount, events, ?_, ?_, Nat.le_refl _⟩
    · rw [← target]
      exact mem_cons_self
    · refine sound.holds events read row stored target le ?_
      intro since token
      exact Nat.lt_of_not_le (fun old => before ⟨since, token, old⟩)

structure Follows (world next : ToDeviceWorld) : Prop where
  counter : world.counter ≤ next.counter
  rows : ∀ row ∈ next.todeviceidEvents,
    row ∈ world.todeviceidEvents ∨ row ∈ world.adding
  adding : ∀ row ∈ next.adding, row ∈ world.adding ∨ world.counter < row.count
  exchanges : ∃ newer, next.exchanges = newer ++ world.exchanges

namespace Follows

variable {world next : ToDeviceWorld}

theorem sound {build : ToDeviceBuild} (follows : Follows world next)
    (sound : build.Sound world) : build.Sound next := by
  obtain ⟨newer, exchanges⟩ := follows.exchanges
  have notNew : ∀ row ∈ next.todeviceidEvents, row.target = build.device →
      row.count ≤ build.currentCount → row ∈ world.todeviceidEvents := by
    intro row member target le
    refine (follows.rows row member).resolve_right (fun adding => ?_)
    exact absurd (sound.ahead row adding target) (Nat.not_lt.mpr le)
  refine {
    counted := Nat.le_trans sound.counted follows.counter
    since_le := sound.since_le
    acknowledges := ?_
    holds := ?_
    ahead := ?_ }
  · intro since token row member target le
    rw [exchanges]
    have old := notNew row member target
      (Nat.le_trans le (sound.since_le since token))
    exact (sound.acknowledges since token row old target le).later newer
  · intro events read row member target le after
    exact sound.holds events read row (notNew row member target le) target le
      after
  · intro row member target
    rcases follows.adding row member with old | new
    · exact sound.ahead row old target
    · exact Nat.lt_of_le_of_lt sound.counted new

theorem answer {device : DeviceOf} {nextBatch : Nat}
    (follows : Follows world next)
    (sound : AnswerSound device nextBatch world) :
    AnswerSound device nextBatch next := by
  obtain ⟨newer, exchanges⟩ := follows.exchanges
  refine {
    counted := Nat.le_trans sound.counted follows.counter
    ahead := ?_
    delivered := ?_ }
  · intro row member target
    rcases follows.adding row member with old | new
    · exact sound.ahead row old target
    · exact Nat.lt_of_le_of_lt sound.counted new
  · intro row member target le
    rw [exchanges]
    refine DeliveredBy.later (sound.delivered row ?_ target le) newer
    refine (follows.rows row member).resolve_right (fun adding => ?_)
    exact absurd (sound.ahead row adding target) (Nat.not_lt.mpr le)

end Follows

namespace ToDeviceInv

variable {world next : ToDeviceWorld}

theorem follow (inv : ToDeviceInv world) (follows : Follows world next)
    (builds : ∀ id build, next.builds id = some build →
      world.builds id = some build ∨ build.Sound next)
    (answered : ∀ device nextBatch events,
      ToDeviceExchange.answered device nextBatch events ∈ next.exchanges →
        ToDeviceExchange.answered device nextBatch events ∈ world.exchanges ∨
          AnswerSound device nextBatch next)
    (deleted : ∀ row ∈ next.deleted,
      row ∈ world.deleted ∨ Acknowledged next.exchanges row) :
    ToDeviceInv next := by
  refine ⟨?_, ?_, ?_⟩
  · intro id build found
    rcases builds id build found with old | sound
    · exact follows.sound (inv.builds id build old)
    · exact sound
  · intro device nextBatch events found
    rcases answered device nextBatch events found with old | sound
    · exact follows.answer (inv.answered device nextBatch events old)
    · exact sound
  · intro row member
    obtain ⟨newer, exchanges⟩ := follows.exchanges
    rcases deleted row member with old | acknowledged
    · rw [exchanges]
      exact (inv.deleted row old).later newer
    · exact acknowledged

end ToDeviceInv

section

open ToDeviceWorld

variable {world : ToDeviceWorld}

theorem Follows.of_builds (world : ToDeviceWorld) (id : Nat)
    (build : Option ToDeviceBuild) :
    Follows world (world.setBuild id build) where
  counter := Nat.le_refl _
  rows _ member := .inl member
  adding _ member := .inl member
  exchanges := ⟨[], rfl⟩

theorem setBuild_old {id other : Nat} {build : Option ToDeviceBuild}
    {found : ToDeviceBuild}
    (row : (world.setBuild id build).builds other = some found) :
    world.builds other = some found ∨ build = some found := by
  simp only [setBuild, Function.update_apply] at row
  split at row
  · exact .inr row
  · exact .inl row

namespace ToDeviceInv

section

variable (inv : ToDeviceInv world)
include inv

theorem setBuild (id : Nat) {build : Option ToDeviceBuild}
    (sound : ∀ found, build = some found → found.Sound world) :
    ToDeviceInv (world.setBuild id build) := by
  have follows := Follows.of_builds world id build
  refine inv.follow follows (fun other found row => ?_)
    (fun _ _ _ answered => .inl answered) (fun _ member => .inl member)
  exact (setBuild_old row).imp_right
    (fun new => follows.sound (sound found new))

theorem nextCount :
    ToDeviceInv { world with counter := nextCounter world.counter } := by
  have follows : Follows world
      { world with counter := nextCounter world.counter } :=
    ⟨le_nextCounter _, fun _ member => .inl member,
      fun _ member => .inl member, [], rfl⟩
  exact inv.follow follows (fun _ _ row => .inl row)
    (fun _ _ _ answered => .inl answered) (fun _ member => .inl member)

theorem drawCount (target : DeviceOf) (eventType : String) (sender : UserId)
    (content : Json) (fits : world.counter < u64Max) :
    ToDeviceInv (world.drawCount target eventType sender content) := by
  have follows : Follows world
      (world.drawCount target eventType sender content) := by
    refine ⟨le_nextCounter _, fun _ member => .inl member, ?_, [], rfl⟩
    intro row member
    rcases mem_cons.mp member with new | old
    · subst new
      exact .inr (Nat.lt_of_lt_of_eq (Nat.lt_succ_self _)
        (nextCounter_of_lt fits).symm)
    · exact .inl old
  exact inv.follow follows (fun _ _ row => .inl row)
    (fun _ _ _ answered => .inl answered) (fun _ member => .inl member)

theorem putEvent (count : Nat) : ToDeviceInv (world.putEvent count) := by
  have follows : Follows world (world.putEvent count) := by
    refine ⟨Nat.le_refl _, ?_, ?_, [], rfl⟩
    · intro row member
      exact (mem_append.mp member).imp_right mem_of_mem_filter
    · intro row member
      exact .inl (mem_of_mem_filter member)
  exact inv.follow follows (fun _ _ row => .inl row)
    (fun _ _ _ answered => .inl answered) (fun _ member => .inl member)

theorem request (id : Nat) (device : DeviceOf) (since : Option Nat)
    (settled : ∀ row ∈ world.adding, row.target ≠ device)
    (issued : ∀ token, since = some token → ∃ events,
      ToDeviceExchange.answered device token events ∈ world.exchanges) :
    ToDeviceInv (world.request id device since) := by
  unfold ToDeviceWorld.request
  split
  · exact inv
  · have follows : Follows world
        { world.startBuild id device since with
          exchanges := .requested device since :: world.exchanges } :=
      ⟨Nat.le_refl _, fun _ member => .inl member,
        fun _ member => .inl member, [_], rfl⟩
    refine inv.follow follows ?_ ?_ (fun _ member => .inl member)
    · intro other build row
      refine (setBuild_old row).imp_right (fun new => ?_)
      cases new
      refine {
        counted := Nat.le_refl _
        since_le := ?_
        acknowledges := ?_
        holds := fun _ read => by cases read
        ahead := fun row adding target => absurd target (settled row adding) }
      · intro token isToken
        obtain ⟨events, answered⟩ := issued token isToken
        exact (inv.answered _ _ _ answered).counted
      · intro token isToken event member target le
        obtain ⟨events, answered⟩ := issued token isToken
        have same : event.target = device := target
        subst same
        cases isToken
        exact ⟨[], world.exchanges, rfl,
          (inv.answered _ _ _ answered).delivered event member rfl le⟩
    · intro other nextBatch events member
      rcases mem_cons.mp member with new | old
      · cases new
      · exact .inl old

theorem removeEvents (id : Nat) (empty : ∀ build, world.builds id = some build →
      build.lastSyncEndCount = none →
      ∀ row ∈ world.todeviceidEvents, row.target ≠ build.device) :
    ToDeviceInv (world.removeEvents id) := by
  unfold ToDeviceWorld.removeEvents
  cases found : world.builds id with
  | none => exact inv
  | some build =>
      have sound := inv.builds id build found
      simp only
      have follows : Follows world
          { world.setBuild id (some { build with removed := true }) with
            todeviceidEvents := world.todeviceidEvents.filter
              (fun row => !build.removes row)
            deleted := world.todeviceidEvents.filter build.removes ++
              world.deleted } :=
        ⟨Nat.le_refl _, fun _ member => .inl (mem_of_mem_filter member),
          fun _ member => .inl member, [], rfl⟩
      refine inv.follow follows ?_ (fun _ _ _ answered => .inl answered) ?_
      · intro other changed row
        refine (setBuild_old row).imp_right (fun new => ?_)
        cases new
        exact follows.sound ⟨sound.counted, sound.since_le, sound.acknowledges,
          sound.holds, sound.ahead⟩
      · intro row member
        refine (mem_append.mp member).symm.imp_right (fun removed => ?_)
        obtain ⟨stored, removes⟩ := mem_filter.mp removed
        simp only [ToDeviceBuild.removes, Bool.and_eq_true, beq_iff_eq,
          decide_eq_true_eq] at removes
        obtain ⟨target, le⟩ := removes
        cases token : build.lastSyncEndCount with
        | none => exact absurd target (empty build found token row stored)
        | some since =>
            rw [token] at le
            exact (sound.acknowledges since token row stored target
              le).acknowledged

theorem readEvents (id : Nat) : ToDeviceInv (world.readEvents id) := by
  unfold ToDeviceWorld.readEvents
  cases found : world.builds id with
  | none => exact inv
  | some build =>
      have sound := inv.builds id build found
      refine inv.setBuild id (fun changed new => ?_)
      cases new
      refine ⟨sound.counted, sound.since_le, sound.acknowledges, ?_,
        sound.ahead⟩
      intro events read row member target le after
      cases read
      refine mem_filter.mpr ⟨member, ?_⟩
      simp only [ToDeviceBuild.reads, Bool.and_eq_true, beq_iff_eq,
        decide_eq_true_eq]
      refine ⟨⟨target, ?_⟩, le⟩
      cases token : build.lastSyncEndCount with
      | none => exact Nat.zero_le _
      | some since =>
          exact Nat.le_trans (Nat.min_le_left _ _) (after since token)

theorem rebuild (id : Nat) (settled : ∀ build, world.builds id = some build →
      ∀ row ∈ world.adding, row.target ≠ build.device) :
    ToDeviceInv (world.rebuild id) := by
  unfold ToDeviceWorld.rebuild
  cases found : world.builds id with
  | none => exact inv
  | some build =>
      have sound := inv.builds id build found
      simp only
      split
      · refine inv.setBuild id (fun changed new => ?_)
        cases new
        exact {
          counted := Nat.le_refl _
          since_le := fun since token =>
            Nat.le_trans (sound.since_le since token) sound.counted
          acknowledges := sound.acknowledges
          holds := fun _ read => by cases read
          ahead := fun row adding target =>
            absurd target (settled build found row adding) }
      · exact inv

theorem respond (id : Nat) : ToDeviceInv (world.respond id) := by
  unfold ToDeviceWorld.respond
  cases found : world.builds id with
  | none => exact inv
  | some build =>
      have sound := inv.builds id build found
      simp only
      cases finished : build.finished with
      | none => exact inv
      | some events =>
          have read : build.toDeviceEvents = some events := by
            unfold ToDeviceBuild.finished at finished
            split at finished
            · exact finished
            · cases finished
          have follows : Follows world
              { world.setBuild id none with
                exchanges := .answered build.device build.currentCount events ::
                    world.exchanges } :=
            ⟨Nat.le_refl _, fun _ member => .inl member,
              fun _ member => .inl member, [_], rfl⟩
          refine inv.follow follows ?_ ?_ (fun _ member => .inl member)
          · intro other changed row
            refine (setBuild_old row).imp_right (fun new => ?_)
            cases new
          · intro device nextBatch held member
            refine (mem_cons.mp member).symm.imp_right (fun new => ?_)
            cases new
            exact ⟨sound.counted, sound.ahead,
              fun row stored target le => sound.delivers read stored target le⟩

end

end ToDeviceInv

end

namespace ToDeviceWorld

variable {world : ToDeviceWorld} {device : DeviceOf}

theorem not_adding_of_settled (settled : world.settled device = true) :
    ∀ row ∈ world.adding, row.target ≠ device := by
  intro row member
  simpa using all_eq_true.mp settled row member

theorem answered_of_issued {since : Nat}
    (issued : world.issued device since = true) :
    ∃ events,
      ToDeviceExchange.answered device since events ∈ world.exchanges := by
  obtain ⟨exchange, member, issues⟩ := any_eq_true.mp issued
  cases exchange with
  | requested other token => cases issues
  | answered other nextBatch events =>
      simp only [ToDeviceExchange.issues, Bool.and_eq_true, beq_iff_eq] at issues
      obtain ⟨rfl, rfl⟩ := issues
      exact ⟨events, member⟩

end ToDeviceWorld

theorem ToDeviceInv.step {world : ToDeviceWorld} (inv : ToDeviceInv world)
    (action : ToDeviceAction) (orderly : world.orderly action = true) :
    ToDeviceInv (world.step action).1 := by
  cases action with
  | nextCount => exact inv.nextCount
  | drawCount target eventType sender content =>
      exact inv.drawCount target eventType sender content
        (of_decide_eq_true orderly)
  | putEvent count => exact inv.putEvent count
  | request id device since =>
      simp only [ToDeviceWorld.orderly, Bool.and_eq_true] at orderly
      refine inv.request id device since
        (ToDeviceWorld.not_adding_of_settled orderly.1) ?_
      intro token isToken
      refine ToDeviceWorld.answered_of_issued ?_
      simpa [isToken] using orderly.2
  | removeEvents id =>
      refine inv.removeEvents id ?_
      intro build found token row member
      simp only [ToDeviceWorld.orderly, found, Option.all_some, token,
        Option.isSome_none, Bool.false_or] at orderly
      simpa using all_eq_true.mp orderly row member
  | readEvents id => exact inv.readEvents id
  | rebuild id =>
      refine inv.rebuild id ?_
      intro build found
      simp only [ToDeviceWorld.orderly, found, Option.all_some] at orderly
      exact ToDeviceWorld.not_adding_of_settled orderly
  | respond id => exact inv.respond id
  | abandon id => exact inv.setBuild id (fun _ gone => by cases gone)

theorem ToDeviceWorld.Fresh.inv {world : ToDeviceWorld}
    (fresh : world.Fresh) : ToDeviceInv world where
  builds id build found := by
    rw [fresh.builds id] at found
    cases found
  answered device nextBatch events member := by
    rw [fresh.exchanges] at member
    cases member
  deleted row member := by
    rw [fresh.deleted] at member
    cases member

/-- In every run of orderly steps the syncs delete only what the client has
acknowledged. -/
theorem atLeastOnce_of_orderly {first world : ToDeviceWorld}
    {history : List (Entry ToDeviceWorld ToDeviceAction Unit)}
    (fresh : first.Fresh)
    (reaches : Reaches ToDeviceWorld.step first history world)
    (orderly : ∀ entry ∈ history,
      entry.before.orderly entry.input = true) : AtLeastOnce world := by
  have inv : ToDeviceInv world :=
    Reaches.invariant (fun _ world => ToDeviceInv world) fresh.inv
      (fun _ world action inv orderly => inv.step action orderly)
      reaches (Always.of_forall_mem orderly)
  exact inv.deleted

namespace PhoneRun

def phone : DeviceOf := ("@alice:h", "PHONE")

def quiet : ToDeviceWorld where
  counter := 0
  todeviceidEvents := []
  adding := []
  builds _ := none
  exchanges := []
  deleted := []

theorem quiet_fresh : quiet.Fresh := ⟨rfl, fun _ => rfl, rfl, rfl⟩

def roomKey : List ToDeviceAction :=
  [.drawCount phone "m.room_key" "@bob:h" .null, .putEvent 1]

def sync (id : Nat) (since : Option Nat) : List ToDeviceAction :=
  [.request id phone since, .removeEvents id, .readEvents id, .respond id]

def acknowledging : List ToDeviceAction :=
  sync 0 none ++ roomKey ++ sync 1 (some 0) ++ sync 2 (some 1)

theorem acknowledged_atLeastOnce :
    (run ToDeviceWorld.step quiet acknowledging).2.deleted.length = 1 ∧
      AtLeastOnce (run ToDeviceWorld.step quiet acknowledging).2 := by
  refine ⟨rfl, atLeastOnce_of_orderly quiet_fresh (reaches_run _ _ _) ?_⟩
  decide +kernel

/-- The room key is deleted by a sync without a token, and no response holds
it. -/
theorem roomKey_lost :
    (run ToDeviceWorld.step quiet (roomKey ++ sync 0 none)).2.exchanges =
        [.answered phone 1 [], .requested phone none] ∧
      ¬ AtLeastOnce (run ToDeviceWorld.step quiet (roomKey ++ sync 0 none)).2 ∧
      ¬ ∀ first world history, ToDeviceWorld.Fresh first →
        Reaches ToDeviceWorld.step first history world →
        AtLeastOnce world := by
  have lost : ¬ AtLeastOnce
      (run ToDeviceWorld.step quiet (roomKey ++ sync 0 none)).2 := by
    intro kept
    obtain ⟨newer, older, since, nextBatch, events, same, _⟩ :=
      kept ⟨phone, 1, "m.room_key", "@bob:h", .null⟩ mem_cons_self
    have member : ToDeviceExchange.requested phone (some since) ∈
        [ToDeviceExchange.answered phone 1 [], .requested phone none] := by
      have split : [ToDeviceExchange.answered phone 1 [], .requested phone none] =
          newer ++ .requested phone (some since) :: older := same
      rw [split]
      simp
    simp at member
  exact ⟨rfl, lost, fun all => lost (all _ _ _ quiet_fresh (reaches_run _ _ _))⟩

end PhoneRun

end ArcanaServer.Sync
