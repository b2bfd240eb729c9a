import ArcanaServer.EventHandler.UpgradeOutlier
import ArcanaServer.Library.Graphs
import ArcanaServer.Library.Settles

namespace ArcanaServer.EventHandler

open Library ArcanaServer.Matrix Rooms Upgrading
open StateRes (RoomVersion RoomVersionId roomIdOrHash)
open Timeline Function Keeps List

variable {Digest : Type}

/-! The leaves of the rooms over runs of local and incoming events. -/

/-- The tables that the leaves are compared with stay the same. -/
structure Still (before after : RoomWorld Digest) : Prop where
  pduIds : after.eventidPduid = before.eventidPduid
  timeline : after.timeline = before.timeline
  leaves : after.pduleaves = before.pduleaves
  softFailed : after.softfailedeventids = before.softfailedeventids

instance : IsPreorder (RoomWorld Digest) Still where
  refl _ := ⟨rfl, rfl, rfl, rfl⟩
  trans _ _ _ left right :=
    ⟨right.pduIds.trans left.pduIds, right.timeline.trans left.timeline,
      right.leaves.trans left.leaves, right.softFailed.trans left.softFailed⟩

/-- No event changed its place: what differs is at most the current states,
short ids, stored events and saved states. -/
structure Unplaced (before after : RoomWorld Digest) : Prop
    extends Still before after where
  referenced : after.referencedevents = before.referencedevents

instance : IsPreorder (RoomWorld Digest) Unplaced where
  refl world := ⟨refl_of Still world, rfl⟩
  trans _ _ _ left right := ⟨trans_of Still left.toStill right.toStill,
    right.referenced.trans left.referenced⟩

section

variable {α : Type}

theorem unplaced_looking
    (lookup : RoomWorld Digest → Except Refusal α × Lookups Digest) :
    Keeps Unplaced (looking lookup) := by
  intro world
  unfold looking
  obtain ⟨result, lookups⟩ := lookup world
  cases result with
  | ok value | error refusal => exact ⟨⟨rfl, rfl, rfl, rfl⟩, rfl⟩

theorem unplaced_reading (read : RoomWorld Digest → Except Refusal α) :
    Keeps Unplaced (reading read) := by
  intro world
  unfold reading
  cases read world with
  | ok value | error refusal => exact refl_of Unplaced world

theorem unplaced_onStore
    (operation : Store Digest → Except Rooms.Failure α × Store Digest) :
    Keeps Unplaced (onStore operation) := by
  intro world
  unfold onStore
  split
  · exact ⟨⟨rfl, rfl, rfl, rfl⟩, rfl⟩
  · exact ⟨⟨rfl, rfl, rfl, rfl⟩, rfl⟩

end

section

variable (upgrading : Upgrading Digest) {incomingPdu createEvent : Pdu}
  {origin : ServerName} {roomId : RoomId}

theorem unplaced_stateAtEvent (roomVersionId : RoomVersionId) :
    Keeps Unplaced (upgrading.stateAtEvent incomingPdu createEvent origin
      roomId roomVersionId) := by
  have fetches : ∀ known, Keeps Unplaced (upgrading.orFetched known incomingPdu
      createEvent origin roomId) := by
    intro known
    cases known with
    | none => exact unplaced_looking _
    | some state => exact pure _
  refine (unplaced_looking _).bind fun known => ?_
  refine (fetches known).bind fun found => ?_
  cases found with
  | none => exact throw _
  | some state => exact pure state

theorem unplaced_softFailEarly (roomVersionId : RoomVersionId)
    (roomVersion : RoomVersion) :
    Keeps Unplaced (upgrading.softFailEarly incomingPdu createEvent roomId
      roomVersionId roomVersion) := by
  refine (unplaced_reading _).bind fun authEvents => ?_
  refine (Keeps.liftExcept _).bind fun passed => ?_
  split
  · exact pure true
  · exact pure false
  · exact (unplaced_reading _).bind fun allowed => pure _

theorem unplaced_prepare :
    Keeps Unplaced (upgrading.prepare incomingPdu createEvent origin
      roomId) := by
  unfold Upgrading.prepare
  split
  · exact throw _
  · rename_i roomVersionId _
    refine (unplaced_stateAtEvent upgrading roomVersionId).bind fun state => ?_
    split
    · exact throw _
    · refine (unplaced_reading _).bind fun passed => ?_
      refine (Keeps.refuseIf _ _).bind fun _ => ?_
      refine (unplaced_softFailEarly upgrading _ _).bind fun softFail => ?_
      refine Keeps.get.bind fun world => ?_
      refine bind ?_ fun compressed => pure _
      exact fun world => ⟨⟨rfl, rfl, rfl, rfl⟩, rfl⟩

theorem unplaced_forceState [DecidableEq Digest] (prepared : Prepared) :
    Keeps Unplaced (upgrading.forceState incomingPdu roomId prepared) := by
  unfold Upgrading.forceState
  split
  · refine bind (fun world => ⟨⟨rfl, rfl, rfl, rfl⟩, rfl⟩) fun after => ?_
    refine (unplaced_looking _).bind fun newRoomState => ?_
    refine (unplaced_onStore _).bind fun saved => ?_
    exact fun world => ⟨⟨rfl, rfl, rfl, rfl⟩, rfl⟩
  · exact pure ()

end

section

variable [DecidableEq Digest] (upgrading : Upgrading Digest)
  (incomingPdu createEvent : Pdu) (origin : ServerName) (roomId : RoomId)

theorem upgrade_skips {world : RoomWorld Digest}
    (skips : ((world.eventidPduid incomingPdu.eventId).isSome ||
      world.softfailedeventids incomingPdu.eventId) = true) :
    ended (upgrading.upgradeOutlierToTimelinePdu incomingPdu createEvent
      origin roomId world) = world := by
  unfold Upgrading.upgradeOutlierToTimelinePdu
  rw [get_bind]
  cases fresh : world.eventidPduid incomingPdu.eventId with
  | some pduId => rfl
  | none =>
      rw [fresh, Option.isSome_none, Bool.false_or] at skips
      simp only
      rw [get_bind, skips]
      rfl

theorem upgrade_unfold {world : RoomWorld Digest}
    (proceeds : ((world.eventidPduid incomingPdu.eventId).isSome ||
      world.softfailedeventids incomingPdu.eventId) = false) :
    upgrading.upgradeOutlierToTimelinePdu incomingPdu createEvent origin
      roomId world = (do
        let prepared ← upgrading.prepare incomingPdu createEvent origin roomId
        upgrading.forceState incomingPdu roomId prepared
        let softFail := upgrading.verdict incomingPdu roomId prepared (← get)
        upgrading.conclude incomingPdu roomId prepared softFail) world := by
  obtain ⟨fresh, unmarked⟩ := Bool.or_eq_false_iff.mp proceeds
  rw [Option.isSome_eq_false_iff, Option.isNone_iff_eq_none] at fresh
  unfold Upgrading.upgradeOutlierToTimelinePdu
  rw [get_bind]
  simp only [fresh]
  rw [get_bind, unmarked]
  rfl

inductive Upgraded (world : RoomWorld Digest) : Prop where
  | ends (unplaced : Unplaced world (ended
      (upgrading.upgradeOutlierToTimelinePdu incomingPdu createEvent origin
        roomId world)))
  | concludes (prepared : Prepared) (middle forced : RoomWorld Digest)
      (proceeds : ((world.eventidPduid incomingPdu.eventId).isSome ||
        world.softfailedeventids incomingPdu.eventId) = false)
      (prepares : upgrading.prepare incomingPdu createEvent origin roomId
        world = .ok prepared middle)
      (forces : upgrading.forceState incomingPdu roomId prepared middle =
        .ok () forced)
      (isConclusion : upgrading.upgradeOutlierToTimelinePdu incomingPdu
        createEvent origin roomId world =
          upgrading.conclude incomingPdu roomId prepared
            (upgrading.verdict incomingPdu roomId prepared forced) forced)

theorem upgrade_cases (world : RoomWorld Digest) :
    Upgraded upgrading incomingPdu createEvent origin roomId world := by
  cases proceeds : (world.eventidPduid incomingPdu.eventId).isSome ||
    world.softfailedeventids incomingPdu.eventId with
  | true =>
      have same := upgrade_skips upgrading incomingPdu createEvent origin
        roomId proceeds
      exact .ends (same.symm ▸ refl_of Unplaced world)
  | false =>
      have unfolded := upgrade_unfold upgrading incomingPdu createEvent origin
        roomId proceeds
      have aside : Unplaced world (ended (upgrading.prepare incomingPdu
          createEvent origin roomId world)) :=
        unplaced_prepare upgrading world
      cases prepares : upgrading.prepare incomingPdu createEvent origin
        roomId world with
      | error refusal middle =>
          rw [bind_of_error _ prepares] at unfolded
          rw [prepares] at aside
          exact .ends (unfolded ▸ aside)
      | ok prepared middle =>
          rw [bind_of_ok _ prepares] at unfolded
          rw [prepares] at aside
          have kept : Unplaced middle (ended (upgrading.forceState
              incomingPdu roomId prepared middle)) :=
            unplaced_forceState upgrading prepared middle
          cases forces : upgrading.forceState incomingPdu roomId prepared
            middle with
          | error refusal forced =>
              rw [bind_of_error _ forces] at unfolded
              rw [forces] at kept
              exact .ends (unfolded ▸ trans_of Unplaced aside kept)
          | ok value forced =>
              rw [bind_of_ok _ forces, get_bind] at unfolded
              exact .concludes prepared middle forced proceeds prepares forces
                unfolded

end

/-- The event is the last one of its room, and the leaves are set. -/
structure Appended (pdu : Pdu) (leaves : List EventId) (roomId : RoomId)
    (before after : RoomWorld Digest) : Prop where
  pduIds : ∃ pduId, after.eventidPduid =
    Function.update before.eventidPduid pdu.eventId (some pduId)
  timeline : ∃ count, after.timeline = Function.update before.timeline roomId
    (before.timeline roomId ++ [(count, pdu)])
  leaves : after.pduleaves =
    Function.update before.pduleaves roomId leaves.toFinset
  softFailed : after.softfailedeventids = before.softfailedeventids

namespace Appended

variable {pdu : Pdu} {leaves : List EventId} {roomId : RoomId}

theorem after_still (first second third : RoomWorld Digest)
    (still : Still first second)
    (appended : Appended pdu leaves roomId second third) :
    Appended pdu leaves roomId first third := by
  obtain ⟨pduIds, timeline, sameLeaves, softFailed⟩ := appended
  rw [still.pduIds] at pduIds
  rw [still.timeline] at timeline
  rw [still.leaves] at sameLeaves
  exact ⟨pduIds, timeline, sameLeaves, softFailed.trans still.softFailed⟩

theorem before_still (first second third : RoomWorld Digest)
    (appended : Appended pdu leaves roomId first second)
    (still : Still second third) : Appended pdu leaves roomId first third := by
  obtain ⟨pduIds, timeline, sameLeaves, softFailed⟩ := appended
  rw [← still.pduIds] at pduIds
  rw [← still.timeline] at timeline
  exact ⟨pduIds, timeline, still.leaves.trans sameLeaves,
    still.softFailed.trans softFailed⟩

end Appended

def appendedWorld (pdu : Pdu) (leaves : List EventId) (roomId : RoomId)
    (world : RoomWorld Digest) : RoomWorld Digest :=
  let marked := world.markAsReferenced roomId pdu.prevEvents
  let counted :=
    (marked.setForwardExtremities roomId leaves).nextCount.2.nextCount
  counted.2.insertPdu roomId counted.1 pdu

variable (finish : RoomWorld Digest → Pdu → Except Refusal Unit) (pdu : Pdu)
  (leaves : List EventId)

theorem appendPdu_ended {roomId : RoomId} {world : RoomWorld Digest}
    {shortroomid : ShortId}
    (room : world.roomidShortroomid roomId = some shortroomid) :
    ended (appendPdu finish pdu leaves roomId world) =
      appendedWorld pdu leaves roomId world := by
  unfold appendPdu
  rw [get_bind, room]
  generalize isAppended : appendedWorld pdu leaves roomId world = appended
  have finishes : ended ((liftExcept (finish appended pdu) :
      Acting Digest Unit) appended) = appended := by
    cases finish appended pdu with
    | error refusal | ok value => rfl
  rw [← ended_bind_pure _ (fun _ => (roomId, ((world.markAsReferenced roomId
    pdu.prevEvents).setForwardExtremities roomId
      leaves).nextCount.2.nextCount.1))] at finishes
  rw [← finishes, ← isAppended]
  rfl

theorem appendPdu_once (roomId : RoomId) :
    Once Still (Appended pdu leaves roomId)
      (appendPdu finish pdu leaves roomId) := by
  intro world
  cases room : world.roomidShortroomid roomId with
  | none =>
      left
      unfold appendPdu
      rw [get_bind, room]
      exact refl_of Still world
  | some shortroomid =>
      right
      rw [appendPdu_ended finish pdu leaves room]
      exact ⟨⟨_, rfl⟩, ⟨_, rfl⟩, rfl, rfl⟩

theorem still_onStore {α : Type}
    (operation : Store Digest → Except Rooms.Failure α × Store Digest) :
    Keeps Still (onStore operation) :=
  fun world => (unplaced_onStore operation world).toStill

structure Marked (eventId : EventId) (before after : RoomWorld Digest) :
    Prop where
  pduIds : after.eventidPduid = before.eventidPduid
  timeline : after.timeline = before.timeline
  leaves : after.pduleaves = before.pduleaves
  softFailed : after.softfailedeventids =
    Function.update before.softfailedeventids eventId true

section

variable [DecidableEq Digest] (upgrading : Upgrading Digest)
  (incomingPdu createEvent : Pdu) (origin : ServerName) (roomId : RoomId)

omit [DecidableEq Digest] in
theorem extremities_unplaced {before after : RoomWorld Digest}
    (unplaced : Unplaced before after) :
    extremities after incomingPdu roomId =
      extremities before incomingPdu roomId := by
  unfold extremities RoomWorld.getForwardExtremities
  rw [unplaced.leaves, unplaced.referenced]

omit [DecidableEq Digest] in
theorem prepare_extremities {before middle : RoomWorld Digest}
    {prepared : Upgrading.Prepared}
    (prepares : upgrading.prepare incomingPdu createEvent origin roomId
      before = .ok prepared middle) :
    prepared.extremities = extremities before incomingPdu roomId := by
  unfold prepare at prepares
  cases isVersion : upgrading.roomVersionId createEvent.content with
  | none =>
      simp only [isVersion] at prepares
      cases prepares
  | some roomVersionId =>
      simp only [isVersion] at prepares
      obtain ⟨state, stated, isState, checking⟩ := bind_ok prepares
      cases isRoom : StateRes.RoomVersion.new roomVersionId with
      | error failure =>
          simp only [isRoom] at checking
          cases checking
      | ok roomVersion =>
          simp only [isRoom] at checking
          obtain ⟨passed, read, isPassed, refusing⟩ := bind_ok checking
          obtain ⟨_, passes, isRefused, judging⟩ := bind_ok refusing
          obtain ⟨softFail, judged, isJudged, leaving⟩ := bind_ok judging
          rw [get_bind] at leaving
          obtain ⟨compressed, stored, isStored, answers⟩ := bind_ok leaving
          cases answers
          cases (refuseIf_ok isRefused).2
          have stateAside : Unplaced before stated :=
            (unplaced_stateAtEvent upgrading roomVersionId).ok isState
          have readAside : Unplaced stated read :=
            (unplaced_reading _).ok isPassed
          have judgedAside : Unplaced read judged :=
            (unplaced_softFailEarly upgrading _ _).ok isJudged
          exact extremities_unplaced incomingPdu roomId
            (trans_of Unplaced stateAside
              (trans_of Unplaced readAside judgedAside))

variable {upgrading incomingPdu roomId}

theorem still_appendIncomingPdu (leaves : List EventId)
    (stateIdsCompressed : CompressedState) :
    Keeps Still (appendIncomingPdu upgrading.calculateHash upgrading.finish
      incomingPdu leaves stateIdsCompressed true roomId) := by
  refine (still_onStore _).bind fun _ => ?_
  exact bind (fun world => ⟨rfl, rfl, rfl, rfl⟩) fun _ => pure _

theorem conclude_softFails (prepared : Upgrading.Prepared)
    (world : RoomWorld Digest) :
    Still world (ended (upgrading.conclude incomingPdu roomId prepared true
        world)) ∨
      Marked incomingPdu.eventId world (ended (upgrading.conclude incomingPdu
        roomId prepared true world)) := by
  have still : Still world (ended (appendIncomingPdu upgrading.calculateHash
      upgrading.finish incomingPdu prepared.extremities
        prepared.stateIdsCompressed true roomId world)) :=
    still_appendIncomingPdu prepared.extremities prepared.stateIdsCompressed
      world
  unfold conclude
  rw [if_pos rfl]
  cases result : appendIncomingPdu upgrading.calculateHash upgrading.finish
    incomingPdu prepared.extremities prepared.stateIdsCompressed true roomId
      world with
  | error refusal middle =>
      rw [result] at still
      rw [bind_of_error _ result]
      exact .inl still
  | ok pduId middle =>
      rw [result] at still
      rw [bind_of_ok _ result]
      right
      refine ⟨still.pduIds, still.timeline, still.leaves, ?_⟩
      rw [← still.softFailed]
      rfl

theorem conclude_accepts (prepared : Upgrading.Prepared) :
    Once Still (Appended incomingPdu
        (prepared.extremities ++ [incomingPdu.eventId]) roomId)
      (upgrading.conclude incomingPdu roomId prepared false) := by
  refine Once.keeps_bind Appended.after_still (still_onStore _) fun _ => ?_
  exact Once.bind_keeps Appended.before_still (appendPdu_once _ _ _ roomId)
    fun pduId => pure _

section

variable (upgrading : Upgrading Digest) (incomingPdu createEvent : Pdu)
  (origin : ServerName) (roomId : RoomId)

def Upgrading.verdictOn (world : RoomWorld Digest) : Option Bool :=
  if (world.eventidPduid incomingPdu.eventId).isSome ||
      world.softfailedeventids incomingPdu.eventId then
    none
  else
    match upgrading.prepare incomingPdu createEvent origin roomId world with
    | .error _ _ => none
    | .ok prepared middle =>
        match upgrading.forceState incomingPdu roomId prepared middle with
        | .error _ _ => none
        | .ok _ forced =>
            some (upgrading.verdict incomingPdu roomId prepared forced)

inductive Ended (before after : RoomWorld Digest) : Prop where
  | still (still : Still before after)
  | softFailed (fresh : before.eventidPduid incomingPdu.eventId = none)
      (marked : Marked incomingPdu.eventId before after)
  | accepted (unmarked : before.softfailedeventids incomingPdu.eventId = false)
      (accepts : upgrading.verdictOn incomingPdu createEvent origin roomId
        before = some false)
      (appended : Appended incomingPdu
        (extremities before incomingPdu roomId ++
          [incomingPdu.eventId]) roomId before after)

end

theorem upgrade_ended (before : RoomWorld Digest) :
    Ended upgrading incomingPdu createEvent origin roomId before
      (ended (upgrading.upgradeOutlierToTimelinePdu incomingPdu createEvent
        origin roomId before)) := by
  cases upgrade_cases upgrading incomingPdu createEvent origin roomId
    before with
  | ends unplaced => exact .still unplaced.toStill
  | concludes prepared middle forced proceeds prepares forces isConclusion =>
      have still : Still before forced :=
        (trans_of Unplaced ((unplaced_prepare upgrading).ok prepares)
          ((unplaced_forceState upgrading prepared).ok forces)).toStill
      obtain ⟨fresh, unmarked⟩ := Bool.or_eq_false_iff.mp proceeds
      rw [Option.isSome_eq_false_iff, Option.isNone_iff_eq_none] at fresh
      rw [isConclusion]
      cases isVerdict : upgrading.verdict incomingPdu roomId prepared
        forced with
      | true =>
          rcases conclude_softFails prepared forced with same | marked
          · exact .still (trans_of Still still same)
          · refine .softFailed fresh ⟨marked.pduIds.trans still.pduIds,
              marked.timeline.trans still.timeline,
              marked.leaves.trans still.leaves, ?_⟩
            rw [marked.softFailed, still.softFailed]
      | false =>
          rcases conclude_accepts prepared forced with same | appended
          · exact .still (trans_of Still still same)
          · have accepts : upgrading.verdictOn incomingPdu createEvent
                origin roomId before = some false := by
              unfold verdictOn
              rw [if_neg (ne_true_of_eq_false proceeds), prepares]
              simp only [forces, isVerdict]
            rw [prepare_extremities upgrading incomingPdu createEvent
              origin roomId prepares] at appended
            exact .accepted unmarked accepts
              (Appended.after_still _ _ _ still appended)

end

section

variable [DecidableEq Digest] {building : Building Digest}
  {builder : PduBuilder} {sender : UserId} {roomId : Option RoomId}

section

omit [DecidableEq Digest]

theorem createEvent_prevEvents {world : RoomWorld Digest} {pdu : Pdu}
    {version : StateRes.RoomVersionId}
    (created : building.createEvent world builder sender roomId =
      .ok (pdu, version)) :
    pdu.prevEvents = Building.prevEvents world roomId ∧
      pdu.roomId = roomId := by
  obtain ⟨roomVersionId, _, rest⟩ := bind_eq_ok created
  obtain ⟨roomVersion, _, rest⟩ := bind_eq_ok rest
  obtain ⟨authEvents, _, rest⟩ := bind_eq_ok rest
  obtain ⟨createEvent, _, rest⟩ := bind_eq_ok rest
  obtain ⟨passed, _, rest⟩ := bind_eq_ok rest
  cases passed with
  | false => cases rest
  | true =>
      cases rest
      exact ⟨rfl, rfl⟩

theorem created_prevEvents {world : RoomWorld Digest} {pdu : Pdu}
    (created : building.createHashAndSignEvent world builder sender roomId =
      .ok pdu) :
    pdu.prevEvents = Building.prevEvents world roomId ∧
      pdu.roomId = roomId := by
  unfold Building.createHashAndSignEvent at created
  split at created
  · cases created
  · obtain ⟨⟨draft, version⟩, isDraft, rest⟩ := bind_eq_ok created
    obtain ⟨eventId, _, rest⟩ := bind_eq_ok rest
    simp only at rest
    split at rest
    · cases rest
    · cases rest
      obtain ⟨prevEvents, isRoom⟩ := createEvent_prevEvents isDraft
      exact ⟨prevEvents, isRoom⟩

theorem roomIdOrHash_some {ruma : Ruma} {pdu : Pdu} {roomId target : RoomId}
    (isRoom : pdu.roomId = some roomId)
    (isTarget : roomIdOrHash ruma pdu = .ok target) : target = roomId := by
  unfold roomIdOrHash at isTarget
  rw [isRoom] at isTarget
  split at isTarget
  · cases isTarget
    rfl
  · cases isTarget
    rfl

end

inductive Built (building : Building Digest) (builder : PduBuilder)
    (sender : UserId) (roomId : Option RoomId)
    (before after : RoomWorld Digest) : Prop where
  | still (still : Still before after)
  | appended (pdu : Pdu) (target : RoomId)
      (created : building.createHashAndSignEvent before builder sender
        roomId = .ok pdu)
      (isTarget : roomIdOrHash building.ruma pdu = .ok target)
      (appended : Appended pdu [pdu.eventId] target before after)

section

omit [DecidableEq Digest]

theorem still_getOrCreateShortroomid (world : RoomWorld Digest)
    (roomId : RoomId) : Still world (world.getOrCreateShortroomid roomId) := by
  unfold RoomWorld.getOrCreateShortroomid
  split
  · exact refl_of Still world
  · exact ⟨rfl, rfl, rfl, rfl⟩

theorem appendBuilt_once (pdu : Pdu) (target : RoomId) :
    Once Still (Appended pdu [pdu.eventId] target)
      (building.appendBuilt pdu target) := by
  refine Once.keeps_bind Appended.after_still ?_ fun _ => ?_
  · intro world
    change Still world (if pdu.kind = .roomCreate then
      world.getOrCreateShortroomid target else world)
    split
    · exact still_getOrCreateShortroomid world target
    · exact refl_of Still world
  refine Once.keeps_bind Appended.after_still (still_onStore _)
    fun statehashid => ?_
  refine Once.bind_keeps Appended.before_still (appendPdu_once _ _ _ target)
    fun pduId => ?_
  refine get.bind fun world => ?_
  refine (Keeps.liftExcept _).bind fun _ => ?_
  refine bind (fun world => ⟨rfl, rfl, rfl, rfl⟩) fun _ => ?_
  refine get.bind fun world => ?_
  exact (Keeps.liftExcept _).bind fun _ => pure _

theorem checkBuilt_target {world : RoomWorld Digest} {pdu : Pdu}
    {target : RoomId} (checked : building.checkBuilt world pdu = .ok target) :
    roomIdOrHash building.ruma pdu = .ok target := by
  obtain ⟨roomId, isRoom, rest⟩ := bind_eq_ok checked
  obtain ⟨_, _, rest⟩ := bind_eq_ok rest
  obtain ⟨_, _, rest⟩ := bind_eq_ok rest
  obtain ⟨_, _, rest⟩ := bind_eq_ok rest
  cases rest
  unfold Building.fromOutcome at isRoom
  split at isRoom
  · cases isRoom
    assumption
  · cases isRoom
  · cases isRoom

theorem build_ended (before : RoomWorld Digest) :
    Built building builder sender roomId before
      (ended (building.buildAndAppendPdu builder sender roomId before)) := by
  unfold Building.buildAndAppendPdu
  rw [get_bind]
  cases created : building.createHashAndSignEvent before builder sender
    roomId with
  | error refusal => exact .still (refl_of Still before)
  | ok pdu =>
      let drawn : RoomWorld Digest := { before with
        store := { before.store with
          short :=
            (before.store.short.getOrCreateShorteventid pdu.eventId).2 } }
      have still : Still before drawn := ⟨rfl, rfl, rfl, rfl⟩
      change Built building builder sender roomId before (ended
        ((liftExcept (building.checkBuilt drawn pdu) >>= fun target =>
          building.appendBuilt pdu target) drawn))
      cases checked : building.checkBuilt drawn pdu with
      | error refusal => exact .still still
      | ok target =>
          have once : Once Still (Appended pdu [pdu.eventId] target)
              (building.appendBuilt pdu target) := appendBuilt_once pdu target
          rcases once drawn with same | appended
          · exact .still (trans_of Still still same)
          · exact .appended pdu target created (checkBuilt_target checked)
              (Appended.after_still _ _ _ still appended)

end

end

variable (world : RoomWorld Digest)

def timelinePdus (roomId : RoomId) : List Pdu :=
  (world.timeline roomId).map Prod.snd

def acceptedPdus (roomId : RoomId) : List Pdu :=
  (timelinePdus world roomId).filter
    (fun pdu => !world.softfailedeventids pdu.eventId)

/-- The stored leaves are the accepted events that no accepted event lists. -/
def ExactLeaves : Prop :=
  ∀ roomId eventId, eventId ∈ world.pduleaves roomId ↔
    eventId ∈ frontier Pdu.eventId Pdu.prevEvents (acceptedPdus world roomId)

/-- Events of a timeline have their place in it and are not soft-failed. -/
structure LeavesInv : Prop where
  placed : ∀ roomId, ∀ pdu ∈ timelinePdus world roomId,
    (world.eventidPduid pdu.eventId).isSome
  unmarked : ∀ roomId, ∀ pdu ∈ timelinePdus world roomId,
    world.softfailedeventids pdu.eventId = false
  leaves : ∀ roomId eventId, eventId ∈ world.pduleaves roomId ↔
    eventId ∈ frontier Pdu.eventId Pdu.prevEvents (timelinePdus world roomId)

namespace LeavesInv

variable {before after : RoomWorld Digest}

theorem exact_leaves (inv : LeavesInv before) : ExactLeaves before := by
  intro roomId eventId
  have all : acceptedPdus before roomId = timelinePdus before roomId := by
    apply filter_eq_self.mpr
    intro pdu member
    rw [inv.unmarked roomId pdu member]
    rfl
  rw [all]
  exact inv.leaves roomId eventId

theorem empty (cacheCapacity : Nat) :
    LeavesInv (RoomWorld.empty cacheCapacity : RoomWorld Digest) := by
  refine ⟨?_, ?_, ?_⟩
  · intro roomId pdu member
    cases member
  · intro roomId pdu member
    cases member
  · intro roomId eventId
    constructor
    · intro member
      cases member
    · rintro ⟨⟨pdu, member, _⟩, _⟩
      cases member

theorem still (inv : LeavesInv before) (same : Still before after) :
    LeavesInv after := by
  have sameEvents : timelinePdus after = timelinePdus before := by
    unfold timelinePdus
    rw [same.timeline]
  refine ⟨?_, ?_, ?_⟩
  · rw [sameEvents, same.pduIds]
    exact inv.placed
  · rw [sameEvents, same.softFailed]
    exact inv.unmarked
  · rw [sameEvents, same.leaves]
    exact inv.leaves

theorem marked {id : EventId} (inv : LeavesInv before)
    (fresh : before.eventidPduid id = none) (marks : Marked id before after) :
    LeavesInv after := by
  have sameEvents : timelinePdus after = timelinePdus before := by
    unfold timelinePdus
    rw [marks.timeline]
  refine ⟨?_, ?_, ?_⟩
  · rw [sameEvents, marks.pduIds]
    exact inv.placed
  · rw [sameEvents, marks.softFailed]
    intro roomId pdu member
    have other : pdu.eventId ≠ id := by
      rintro rfl
      have placed := inv.placed roomId pdu member
      rw [fresh] at placed
      cases placed
    rw [update_of_ne other]
    exact inv.unmarked roomId pdu member
  · rw [sameEvents, marks.leaves]
    exact inv.leaves

theorem appended {pdu : Pdu} {leaves : List EventId} {roomId : RoomId}
    (inv : LeavesInv before) (appends : Appended pdu leaves roomId before after)
    (unmarked : before.softfailedeventids pdu.eventId = false)
    (unlisted : ∀ old ∈ timelinePdus before roomId,
      pdu.eventId ∉ old.prevEvents)
    (proper : pdu.eventId ∉ pdu.prevEvents)
    (isLeaves : ∀ eventId, eventId ∈ leaves ↔
      (eventId ∈ before.pduleaves roomId ∧ eventId ∉ pdu.prevEvents) ∨
        eventId = pdu.eventId) :
    LeavesInv after := by
  obtain ⟨⟨pduId, pduIds⟩, ⟨count, timeline⟩, sameLeaves, softFailed⟩ := appends
  have here : timelinePdus after roomId =
      timelinePdus before roomId ++ [pdu] := by
    unfold timelinePdus
    rw [timeline, update_self, map_append]
    rfl
  have elsewhere : ∀ other, other ≠ roomId →
      timelinePdus after other = timelinePdus before other := by
    intro other isOther
    unfold timelinePdus
    rw [timeline, update_of_ne isOther]
  have members : ∀ room, ∀ event ∈ timelinePdus after room,
      event ∈ timelinePdus before room ∨ event = pdu := by
    intro room event member
    by_cases isHere : room = roomId
    · subst isHere
      rw [here] at member
      simpa using member
    · rw [elsewhere room isHere] at member
      exact .inl member
  refine ⟨?_, ?_, ?_⟩
  · intro room event member
    rw [pduIds]
    by_cases isNew : event.eventId = pdu.eventId
    · rw [isNew, update_self]
      rfl
    · rw [update_of_ne isNew]
      rcases members room event member with old | new
      · exact inv.placed room event old
      · exact absurd (congrArg Pdu.eventId new) isNew
  · intro room event member
    rw [softFailed]
    rcases members room event member with old | new
    · exact inv.unmarked room event old
    · exact new ▸ unmarked
  · intro room eventId
    rw [sameLeaves]
    by_cases isHere : room = roomId
    · subst isHere
      rw [update_self, here, mem_toFinset, isLeaves,
        mem_frontier_append unlisted proper, inv.leaves]
    · rw [update_of_ne isHere, elsewhere room isHere]
      exact inv.leaves room eventId

end LeavesInv

inductive RoomRequest where
  | build (builder : PduBuilder) (sender : UserId) (roomId : Option RoomId)
  | upgrade (incomingPdu createEvent : Pdu) (origin : ServerName)
      (roomId : RoomId)

section

variable [DecidableEq Digest]

variable (building : Building Digest) (upgrading : Upgrading Digest)

def handleRequest (world : RoomWorld Digest) :
    RoomRequest → RoomWorld Digest × Except Refusal Unit
  | .build builder sender roomId =>
      let result := building.buildAndAppendPdu builder sender roomId world
      (ended result, (outcome result).map (fun _ => ()))
  | .upgrade incomingPdu createEvent origin roomId =>
      let result := upgrading.upgradeOutlierToTimelinePdu incomingPdu
        createEvent origin roomId world
      (ended result, (outcome result).map (fun _ => ()))

def Unlisted (world : RoomWorld Digest) (roomId : RoomId) (pdu : Pdu) :
    Prop :=
  (∀ old ∈ timelinePdus world roomId, pdu.eventId ∉ old.prevEvents) ∧
    pdu.eventId ∉ pdu.prevEvents

def FewLeaves (world : RoomWorld Digest) (target : RoomId) :
    Option RoomId → Prop
  | some roomId => (world.pduleaves roomId).card ≤ 20
  | none => world.pduleaves target = ∅

/-- The steps that keep the leaves exact.  Local events: there are at most
twenty leaves, and the id of the new event is not in use.  Incoming events that
are accepted: no event lists the new one, and a leaf that it does not list has
not been referenced by a soft-failed event. -/
def Permitted
    (entry : Entry (RoomWorld Digest) RoomRequest (Except Refusal Unit)) :
    Prop :=
  match entry.input with
  | .build builder sender roomId =>
      ∀ pdu target,
        building.createHashAndSignEvent entry.before builder sender roomId =
          .ok pdu →
        roomIdOrHash building.ruma pdu = .ok target →
        FewLeaves entry.before target roomId ∧
          Unlisted entry.before target pdu ∧
          entry.before.softfailedeventids pdu.eventId = false
  | .upgrade incomingPdu createEvent origin roomId =>
      upgrading.verdictOn incomingPdu createEvent origin roomId
        entry.before = some false →
      Unlisted entry.before roomId incomingPdu ∧
        ∀ leaf ∈ entry.before.pduleaves roomId, leaf ∉ incomingPdu.prevEvents →
          entry.before.referencedevents roomId leaf = false

variable {building : Building Digest} {upgrading : Upgrading Digest}

section

omit [DecidableEq Digest]

variable {world : RoomWorld Digest}

theorem mem_getForwardExtremities {roomId : RoomId} {eventId : EventId} :
    eventId ∈ world.getForwardExtremities roomId ↔
      eventId ∈ world.pduleaves roomId :=
  Finset.mem_sort _

theorem FewLeaves.listed {target : RoomId} {roomId : Option RoomId}
    (few : FewLeaves world target roomId)
    (same : ∀ room, roomId = some room → target = room) {eventId : EventId}
    (leaf : eventId ∈ world.pduleaves target) :
    eventId ∈ Building.prevEvents world roomId := by
  cases roomId with
  | none =>
      have noLeaf : world.pduleaves target = ∅ := few
      rw [noLeaf] at leaf
      cases leaf
  | some room =>
      cases same room rfl
      have fits : (world.getForwardExtremities target).length ≤ 20 := by
        unfold RoomWorld.getForwardExtremities
        rw [Finset.length_sort]
        exact few
      change eventId ∈ (world.getForwardExtremities target).take 20
      rw [take_of_length_le fits]
      exact mem_getForwardExtremities.mpr leaf

theorem mem_extremities {pdu : Pdu} {roomId : RoomId}
    (unreferenced : ∀ leaf ∈ world.pduleaves roomId, leaf ∉ pdu.prevEvents →
      world.referencedevents roomId leaf = false) (eventId : EventId) :
    eventId ∈ extremities world pdu roomId ++ [pdu.eventId] ↔
      (eventId ∈ world.pduleaves roomId ∧ eventId ∉ pdu.prevEvents) ∨
        eventId = pdu.eventId := by
  have kept : eventId ∈ (world.getForwardExtremities roomId).filter
      (fun eventId => eventId ∉ pdu.prevEvents ∧
        !world.referencedevents roomId eventId) ↔
      eventId ∈ world.pduleaves roomId ∧ eventId ∉ pdu.prevEvents := by
    rw [mem_filter, mem_getForwardExtremities, decide_eq_true_iff]
    constructor
    · rintro ⟨leaf, outside, _⟩
      exact ⟨leaf, outside⟩
    · rintro ⟨leaf, outside⟩
      refine ⟨leaf, outside, ?_⟩
      rw [unreferenced eventId leaf outside]
      rfl
  unfold extremities
  rw [mem_append, mem_append, kept, mem_singleton, or_assoc, or_self]

end

theorem LeavesInv.handleRequest {world : RoomWorld Digest}
    (inv : LeavesInv world) (request : RoomRequest)
    (permitted : Permitted building upgrading
      (entryOf (handleRequest building upgrading) world request)) :
    LeavesInv (handleRequest building upgrading world request).1 := by
  cases request with
  | build builder sender roomId =>
      have result : Built building builder sender roomId world
          (ended (building.buildAndAppendPdu builder sender roomId world)) :=
        build_ended world
      cases result with
      | still same => exact inv.still same
      | appended pdu target created isTarget appended =>
          obtain ⟨few, ⟨unlisted, proper⟩, unmarked⟩ :=
            permitted pdu target created isTarget
          obtain ⟨lists, isRoom⟩ := created_prevEvents created
          refine inv.appended appended unmarked unlisted proper ?_
          intro eventId
          rw [mem_singleton]
          refine ⟨.inr, ?_⟩
          rintro (⟨leaf, outside⟩ | isNew)
          · refine absurd (few.listed ?_ leaf) (lists ▸ outside)
            intro room isSome
            exact roomIdOrHash_some (isRoom.trans isSome) isTarget
          · exact isNew
  | upgrade incomingPdu createEvent origin roomId =>
      have result : Ended upgrading incomingPdu createEvent origin roomId
          world (ended (upgrading.upgradeOutlierToTimelinePdu incomingPdu
            createEvent origin roomId world)) :=
        upgrade_ended createEvent origin world
      cases result with
      | still same => exact inv.still same
      | softFailed fresh marked => exact inv.marked fresh marked
      | accepted unmarked accepts appended =>
          obtain ⟨⟨unlisted, proper⟩, unreferenced⟩ := permitted accepts
          exact inv.appended appended unmarked unlisted proper
            (mem_extremities unreferenced)

/-- In a run of permitted steps the stored leaves of every room are its
accepted events that no accepted event lists. -/
theorem exactLeaves_of_permitted {start state : RoomWorld Digest}
    {history : List
      (Entry (RoomWorld Digest) RoomRequest (Except Refusal Unit))}
    (initial : LeavesInv start)
    (reaches : Reaches (handleRequest building upgrading) start history state)
    (permitted : ∀ entry ∈ history, Permitted building upgrading entry) :
    ExactLeaves state := by
  have inv : LeavesInv state :=
    Reaches.invariant (fun _ world => LeavesInv world) initial
      (fun _ world request inv permitted => inv.handleRequest request permitted)
      reaches (Always.of_forall_mem permitted)
  exact inv.exact_leaves

end

abbrev PlainDigest := List CompressedStateEvent

def plainEvent (eventId : EventId) (sender : UserId) (kind : EventType)
    (stateKey : Option StateKey) (content : Json)
    (earlier : List EventId) : Pdu :=
  { Pdu.message eventId "!r:h" sender with
    kind, content, stateKey, prevEvents := earlier, authEvents := earlier }

def roomCreated : Pdu :=
  plainEvent "$create" "@alice:h" .roomCreate (some "")
    (.obj [("room_version", .str "11")]) []

def joinedBob : Pdu :=
  plainEvent "$join" "@bob:s" .roomMember (some "@bob:s")
    (.obj [("membership", .str "join")]) ["$create", "$hello"]

def aliceJoined : Pdu :=
  plainEvent "$alice" "@alice:h" .roomMember (some "@alice:h")
    (.obj [("membership", .str "join")]) ["$create"]

def aliceWrites (eventId : EventId) (earlier : List EventId) : Pdu :=
  { plainEvent eventId "@alice:h" (.other "m.room.message") none (.obj [])
      earlier with
    authEvents := ["$create", "$alice"] }

def joinedStore : Store PlainDigest :=
  let store : Store PlainDigest := Store.empty 10
  let short :=
    (store.short.getOrCreateShortstatekey (.roomCreate, "")).2
  { store with
    short := (short.getOrCreateShortstatekey (.roomMember, "@alice:h")).2 }

def knownRoom : RoomWorld PlainDigest :=
  { (RoomWorld.empty 10 : RoomWorld PlainDigest) with
    store := joinedStore
    pdus := fun eventId =>
      [("$create", roomCreated), ("$alice", aliceJoined)].lookup eventId
    roomidShortroomid := fun _ => some 0 }

def joinedRoom : RoomWorld PlainDigest :=
  appendedWorld joinedBob ["$join"] "!r:h" knownRoom

/-- Messages only: they force no state, so that none is resolved. -/
def joinedUpgrading : Upgrading PlainDigest where
  ruma := StateRes.plainRuma
  roomVersionId := fun _ => some .v11
  redactionTarget := fun _ => none
  calculateHash := id
  stateAtIncoming := fun world _ _ _ =>
    (.ok (some [(1, "$create"), (2, "$alice")]),
      { short := world.store.short, pdus := world.pdus })
  fetchState := fun world _ _ _ _ =>
    (.ok none, { short := world.store.short, pdus := world.pdus })
  getAuthEvents := fun _ _ _ _ =>
    .ok [((.roomCreate, ""), roomCreated),
      ((.roomMember, "@alice:h"), aliceJoined)]
  userCanRedact := fun _ _ _ _ => .ok true
  resolveState := fun world _ _ _ =>
    (.error (.other "no state"),
      { short := world.store.short, pdus := world.pdus })
  askPolicyServer := fun _ _ _ => .ok true
  finish := fun _ _ => .ok ()

def idleBuilding : Building PlainDigest where
  ruma := StateRes.plainRuma
  userIsLocal := fun _ => false
  createdVersion := fun _ => none
  getRoomVersion := fun _ _ => none
  getAuthEvents := fun _ _ _ _ _ => .ok []
  getCreateEvent := fun _ _ => none
  millisSinceUnixEpoch := fun _ => 0
  hashAndSignEvent := fun _ _ => .error (.other "no key")
  askPolicyServer := fun _ _ _ => .ok true
  checkPduForAdminRoom := fun _ _ _ => .ok ()
  redactionContent := fun _ => .ok none
  memberContent := fun _ =>
    .ok { membership := .join, joinAuthorizedViaUsersServer := none }
  userCanRedact := fun _ _ _ _ => .ok true
  finish := fun _ _ => .ok ()
  processCommands := fun _ _ => .ok ()
  sendPduServers := fun _ _ => .ok ()

theorem joinedRoom_inv : LeavesInv joinedRoom := by
  have start : LeavesInv knownRoom :=
    (LeavesInv.empty 10).still ⟨rfl, rfl, rfl, rfl⟩
  have appends : Appended joinedBob ["$join"] "!r:h" knownRoom joinedRoom :=
    ⟨⟨_, rfl⟩, ⟨_, rfl⟩, rfl, rfl⟩
  refine start.appended appends rfl ?_ ?_ ?_
  · intro old member
    cases member
  · decide
  · intro eventId
    rw [mem_singleton]
    exact ⟨.inr, fun leaf => leaf.elim (fun none => nomatch none.1) id⟩

def handleJoined (pdu : Pdu) : RoomWorld PlainDigest :=
  (handleRequest idleBuilding joinedUpgrading joinedRoom
    (.upgrade pdu roomCreated "s" "!r:h")).1

theorem exactLeaves_of_next :
    ((handleJoined (aliceWrites "$next" ["$join"])).timeline "!r:h").map
        (fun entry => entry.2.eventId) = ["$join", "$next"] ∧
      ExactLeaves (handleJoined (aliceWrites "$next" ["$join"])) := by
  have reaches := reaches_run (handleRequest idleBuilding joinedUpgrading)
    joinedRoom [.upgrade (aliceWrites "$next" ["$join"]) roomCreated "s"
      "!r:h"]
  refine ⟨by decide +kernel,
    exactLeaves_of_permitted joinedRoom_inv reaches ?_⟩
  intro entry member
  cases mem_singleton.mp member
  intro _
  refine ⟨⟨?_, by decide⟩, ?_⟩
  · intro old member
    rw [mem_singleton.mp member]
    decide
  · intro leaf isLeaf outside
    have isJoin : leaf ∈ (["$join"] : List EventId).toFinset := isLeaf
    exact absurd (mem_toFinset.mp isJoin) outside

theorem lateArrival_becomes_leaf : LeavesInv joinedRoom ∧
      ¬ ExactLeaves (handleJoined (aliceWrites "$hello" ["$alice"])) := by
  refine ⟨joinedRoom_inv, fun claimed => ?_⟩
  have result : Ended joinedUpgrading (aliceWrites "$hello" ["$alice"])
      roomCreated "s" "!r:h" joinedRoom
        (handleJoined (aliceWrites "$hello" ["$alice"])) :=
    upgrade_ended roomCreated "s" joinedRoom
  have grows : ((handleJoined (aliceWrites "$hello" ["$alice"])).timeline
      "!r:h").length = 2 := by
    decide +kernel
  cases result with
  | still same =>
      rw [same.timeline] at grows
      cases grows
  | softFailed _ marked =>
      rw [marked.timeline] at grows
      cases grows
  | accepted _ _ appended =>
      have leaf : "$hello" ∈ (handleJoined
          (aliceWrites "$hello" ["$alice"])).pduleaves "!r:h" := by
        rw [appended.leaves, update_self, mem_toFinset]
        exact mem_append_right _ (mem_singleton_self _)
      have listed : joinedBob ∈ acceptedPdus
          (handleJoined (aliceWrites "$hello" ["$alice"])) "!r:h" := by
        obtain ⟨count, timeline⟩ := appended.timeline
        unfold acceptedPdus timelinePdus
        rw [timeline, update_self, appended.softFailed]
        exact mem_cons_self
      have outside := ((claimed "!r:h" "$hello").mp leaf).2 joinedBob listed
      exact absurd outside (by decide)

end ArcanaServer.EventHandler
