import ArcanaServer.Api.Messages
import ArcanaServer.Rooms.Relations
import Mathlib.Data.Prod.Lex
import Mathlib.Data.String.Basic

namespace ArcanaServer.Api.Relations

open Database ArcanaServer.Matrix Rooms.Relations Api.Messages
open Api.Messages.Services List

/-! The edits that are bundled with an event. -/

def jsonGet (name : String) : Json → Option Json
  | .obj fields => fields.lookup name
  | _ => none

def relType (event : Pdu) : Option String :=
  ((jsonGet "m.relates_to" event.content).bind (jsonGet "rel_type")).bind
    Json.asStr

def isReplacementEvent (event : Pdu) : Bool :=
  relType event == some "m.replace"

def hasNewContentOrEncrypted (event : Pdu) : Bool :=
  event.kind = .other "m.room.encrypted" ||
    (jsonGet "m.new_content" event.content).isSome

def isValidReplacementEvent (original replacement : Pdu) : Bool :=
  original.roomId = replacement.roomId &&
    original.sender = replacement.sender &&
    original.kind = replacement.kind &&
    original.stateKey.isNone && replacement.stateKey.isNone &&
    !isReplacementEvent original && hasNewContentOrEncrypted replacement

/-- The later time is next, and among equal ones the greater id. -/
def isNext : Option Pdu → Pdu → Bool
  | none, _ => true
  | some current, pdu => current.originServerTs < pdu.originServerTs ||
      pdu.originServerTs = current.originServerTs &&
        current.eventId < pdu.eventId

structure BundledRelations where
  replace : Option Pdu
  reference : Option (List EventId)

section

variable (services : Messages.Services) (userId : UserId)

def findMostRecentValidReplacement (original : Pdu) :
    Option Pdu → List PdusIterItem → Except String (Option Pdu)
  | result, [] => .ok result
  | result, (_, pdu) :: rest =>
      if !isValidReplacementEvent original pdu || !isNext result pdu then
        findMostRecentValidReplacement original result rest
      else
        match roomIdOrHash pdu with
        | .error message => .error message
        | .ok roomId =>
            if services.userCanSeeEvent userId roomId pdu.eventId then
              findMostRecentValidReplacement original (some pdu) rest
            else findMostRecentValidReplacement original result rest

/-- Without a depth no round of `get_relations` is needed. -/
def getBundledAggregations (data : PduMetadata) (pdu : Pdu) :
    Except String (Option BundledRelations) := do
  if pdu.stateKey.isSome || isReplacementEvent pdu then
    return none
  let relations := (data.getRelations 0 (← roomIdOrHash pdu) pdu.eventId .max
    50 0 .backward).getD []
  let replaceEvents := relations.filter (fun relation =>
    relType relation.2 == some "m.replace")
  let referenceEvents := relations.filter (fun relation =>
    relType relation.2 == some "m.reference")
  if replaceEvents.isEmpty && referenceEvents.isEmpty then
    return none
  let replace ← findMostRecentValidReplacement services userId pdu none
    replaceEvents
  let chunk := referenceEvents.map (fun relation => relation.2.eventId)
  return some { replace, reference := if chunk.isEmpty then none else chunk }

end

def recency (event : Pdu) : Nat ×ₗ EventId :=
  toLex (event.originServerTs, event.eventId)

theorem isNext_some_iff {current pdu : Pdu} :
    isNext (some current) pdu = true ↔ recency current < recency pdu := by
  unfold recency isNext
  rw [Prod.Lex.toLex_lt_toLex, Bool.or_eq_true, Bool.and_eq_true,
    decide_eq_true_eq, decide_eq_true_eq, decide_eq_true_eq,
    eq_comm (a := pdu.originServerTs)]

structure ValidReplacement (original event : Pdu) : Prop where
  room : event.roomId = original.roomId
  sender : event.sender = original.sender
  kind : event.kind = original.kind
  noState : event.stateKey = none
  newContent : event.kind = .other "m.room.encrypted" ∨
    (jsonGet "m.new_content" event.content).isSome

section

variable {services : Messages.Services} {userId : UserId} {data : PduMetadata}
  {original : Pdu} {roomId : RoomId}

theorem isValidReplacementEvent_iff (noState : original.stateKey = none)
    (isOriginal : isReplacementEvent original = false) {event : Pdu} :
    isValidReplacementEvent original event = true ↔
      ValidReplacement original event := by
  unfold isValidReplacementEvent hasNewContentOrEncrypted
  rw [isOriginal, noState]
  simp only [Bool.and_eq_true, decide_eq_true_eq, Option.isNone_iff_eq_none,
    Bool.or_eq_true, Bool.not_false, and_true]
  constructor
  · rintro ⟨⟨⟨⟨room, sender⟩, kind⟩, state⟩, content⟩
    exact ⟨room.symm, sender.symm, kind.symm, state, content⟩
  · rintro ⟨room, sender, kind, state, content⟩
    exact ⟨⟨⟨⟨room.symm, sender.symm⟩, kind.symm⟩, state⟩, content⟩

section

variable (services : Messages.Services) (userId : UserId)

def Visible (event : Pdu) : Prop :=
  ∃ roomId, roomIdOrHash event = .ok roomId ∧
    services.userCanSeeEvent userId roomId event.eventId = true

def Good (original event : Pdu) : Prop :=
  isValidReplacementEvent original event = true ∧ Visible services userId event

/-- The loop ends with the most recent of the good events and of the one it
begins with. -/
structure MostRecent (original : Pdu) (items : List PdusIterItem)
    (result final : Option Pdu) : Prop where
  above : ∀ item ∈ items, Good services userId original item.2 →
    ∃ edit, final = some edit ∧ recency item.2 ≤ recency edit
  aboveResult : ∀ current, result = some current →
    ∃ edit, final = some edit ∧ recency current ≤ recency edit
  among : ∀ edit, final = some edit → result = some edit ∨
    ∃ item ∈ items, item.2 = edit ∧ Good services userId original edit

end

section

variable {item : PdusIterItem} {rest : List PdusIterItem}
  {result final : Option Pdu}

theorem MostRecent.skip (below : Good services userId original item.2 →
      ∃ current, result = some current ∧ recency item.2 ≤ recency current)
    (tail : MostRecent services userId original rest result final) :
    MostRecent services userId original (item :: rest) result final where
  above := by
    intro other member good
    rcases mem_cons.mp member with same | inside
    · rw [same] at good ⊢
      obtain ⟨current, here, atMost⟩ := below good
      obtain ⟨edit, isFinal, more⟩ := tail.aboveResult current here
      exact ⟨edit, isFinal, atMost.trans more⟩
    · exact tail.above other inside good
  aboveResult := tail.aboveResult
  among := fun edit isFinal => (tail.among edit isFinal).imp_right
    fun ⟨other, member, good⟩ => ⟨other, mem_cons_of_mem _ member, good⟩

theorem MostRecent.take (good : Good services userId original item.2)
    (isNext : ∀ current, result = some current →
      recency current < recency item.2)
    (tail : MostRecent services userId original rest (some item.2) final) :
    MostRecent services userId original (item :: rest) result final where
  above := by
    intro other member good
    rcases mem_cons.mp member with same | inside
    · rw [same]
      exact tail.aboveResult item.2 rfl
    · exact tail.above other inside good
  aboveResult := by
    intro current here
    obtain ⟨edit, isFinal, more⟩ := tail.aboveResult item.2 rfl
    exact ⟨edit, isFinal, (isNext current here).le.trans more⟩
  among := by
    intro edit isFinal
    rcases tail.among edit isFinal with same | inside
    · have same := Option.some.inj same
      exact .inr ⟨item, mem_cons_self, same, same ▸ good⟩
    · obtain ⟨other, member, rest⟩ := inside
      exact .inr ⟨other, mem_cons_of_mem _ member, rest⟩

end

theorem findMostRecent_spec (items : List PdusIterItem)
    (rooms : ∀ item ∈ items, isValidReplacementEvent original item.2 = true →
      ∃ roomId, roomIdOrHash item.2 = .ok roomId) (result : Option Pdu) :
    ∃ final, findMostRecentValidReplacement services userId original result
        items = .ok final ∧
      MostRecent services userId original items result final := by
  induction items generalizing result with
  | nil =>
      exact ⟨result, rfl, fun item member => absurd member not_mem_nil,
        fun current here => ⟨current, here, le_rfl⟩, fun edit => .inl⟩
  | cons first rest ih =>
      obtain ⟨count, pdu⟩ := first
      have tail (result : Option Pdu) := ih (fun item member =>
        rooms item (mem_cons_of_mem _ member)) result
      obtain ⟨final, ends, recent⟩ := tail result
      unfold findMostRecentValidReplacement
      split
      · rename_i skipped
        refine ⟨final, ends, recent.skip fun good => ?_⟩
        rw [good.1] at skipped
        cases result with
        | none => cases skipped
        | some current =>
            refine ⟨current, rfl, not_lt.mp fun less => ?_⟩
            rw [isNext_some_iff.mpr less] at skipped
            exact absurd skipped (by decide)
      · rename_i kept
        rw [Bool.or_eq_true, not_or, Bool.not_eq_true', Bool.not_eq_true',
          Bool.not_eq_false, Bool.not_eq_false] at kept
        obtain ⟨valid, next⟩ := kept
        obtain ⟨roomId, isRoom⟩ := rooms (count, pdu) mem_cons_self valid
        rw [isRoom]
        dsimp only
        split
        · rename_i sees
          obtain ⟨final, ends, recent⟩ := tail (some pdu)
          refine ⟨final, ends, recent.take ⟨valid, roomId, isRoom, sees⟩ ?_⟩
          rintro current rfl
          exact isNext_some_iff.mp next
        · rename_i hidden
          refine ⟨final, ends, recent.skip fun good => ?_⟩
          obtain ⟨_, other, isOther, sees⟩ := good
          rw [isRoom] at isOther
          rw [← Except.ok.inj isOther] at sees
          exact absurd sees hidden

/-- An edit of the event that relates to it directly. -/
structure EditOf (services : Messages.Services) (userId : UserId)
    (data : PduMetadata) (roomId : RoomId) (original edit : Pdu) : Prop where
  related : ∃ room target number, data.getShortroomid roomId = some room ∧
    data.getPduCount original.eventId = some (.normal target) ∧
    (relationKey target number, ()) ∈ data.tofromRelation.table ∧
    data.getPduFromId ⟨room, .normal number⟩ = some edit
  replaces : relType edit = some "m.replace"
  valid : ValidReplacement original edit
  visible : Visible services userId edit

def relationsOf (data : PduMetadata) (roomId : RoomId) (original : Pdu) :
    List PdusIterItem :=
  (data.getRelations 0 roomId original.eventId .max 50 0 .backward).getD []

theorem sees_backward_max {event : UInt64}
    (drawn : (PduCount.normal event).Drawn) :
    Sees .backward .max (.normal event) :=
  ⟨rfl, UInt64.not_lt.mpr drawn.2⟩

theorem mem_relationsOf {edit : Pdu} :
    (∃ item ∈ relationsOf data roomId original, item.2 = edit) ↔
      ∃ room target number, data.getShortroomid roomId = some room ∧
        data.getPduCount original.eventId = some (.normal target) ∧
        (relationKey target number, ()) ∈ data.tofromRelation.table ∧
        data.getPduFromId ⟨room, .normal number⟩ = some edit := by
  unfold relationsOf PduMetadata.getRelations
  cases isRoom : data.getShortroomid roomId with
  | none => simp
  | some room =>
      cases isTarget : data.getPduCount original.eventId with
      | none => simp
      | some count =>
          have nothing : ((data.dataRelations room .max .backward count).filter
              (fun _ => decide (0 < (0 : UInt8)))).map
                (fun pdu => (pdu, 1)) = [] := by
            simp
          dsimp only
          rw [nothing]
          change (∃ item ∈ data.dataRelations room .max .backward count, _) ↔ _
          constructor
          · rintro ⟨item, member, rfl⟩
            obtain ⟨⟨target, number, rfl, isNumber, row⟩, _, found⟩ :=
              mem_dataRelations.mp member
            rw [isNumber] at found
            exact ⟨room, target, number, rfl, rfl, row, found⟩
          · rintro ⟨other, target, number, sameRoom, same, row, found⟩
            rw [← Option.some.inj sameRoom] at found
            exact ⟨(.normal number, edit), mem_dataRelations.mpr
              ⟨⟨target, number, Option.some.inj same, rfl, row⟩,
                sees_backward_max (drawn_of_mem row).2, found⟩, rfl⟩

theorem editOf_iff (noState : original.stateKey = none)
    (isOriginal : isReplacementEvent original = false) {edit : Pdu} :
    EditOf services userId data roomId original edit ↔
      ∃ item ∈ (relationsOf data roomId original).filter (fun relation =>
        relType relation.2 == some "m.replace"),
        item.2 = edit ∧ Good services userId original edit := by
  constructor
  · rintro ⟨related, replaces, valid, visible⟩
    obtain ⟨item, member, rfl⟩ := mem_relationsOf.mpr related
    exact ⟨item, mem_filter.mpr ⟨member, beq_iff_eq.mpr replaces⟩, rfl,
      (isValidReplacementEvent_iff noState isOriginal).mpr valid, visible⟩
  · rintro ⟨item, member, rfl, valid, visible⟩
    obtain ⟨member, replaces⟩ := mem_filter.mp member
    exact ⟨mem_relationsOf.mp ⟨item, member, rfl⟩, beq_iff_eq.mp replaces,
      (isValidReplacementEvent_iff noState isOriginal).mp valid, visible⟩

theorem roomIdOrHash_isOk_iff {event : Pdu} :
    (∃ roomId, roomIdOrHash event = .ok roomId) ↔
      event.roomId.isSome ∨ event.kind = .roomCreate := by
  unfold roomIdOrHash
  cases event.roomId with
  | some roomId => exact iff_of_true ⟨roomId, rfl⟩ (.inl rfl)
  | none =>
      by_cases isCreate : event.kind = .roomCreate
      · exact iff_of_true ⟨_, if_pos isCreate⟩ (.inr isCreate)
      · simp [isCreate]

/-- The edit that is bundled is the most recent one, and none is bundled if
there is none. -/
theorem getBundledAggregations_replace
    (isRoom : roomIdOrHash original = .ok roomId)
    (noState : original.stateKey = none)
    (isOriginal : isReplacementEvent original = false) :
    ∃ bundled, getBundledAggregations services userId data original =
        .ok bundled ∧
      (∀ edit, bundled.bind BundledRelations.replace = some edit →
        EditOf services userId data roomId original edit ∧
        ∀ other, EditOf services userId data roomId original other →
          recency other ≤ recency edit) ∧
      (bundled.bind BundledRelations.replace = none →
        ∀ other, ¬ EditOf services userId data roomId original other) := by
  have rooms : ∀ item ∈ (relationsOf data roomId original).filter
      (fun relation => relType relation.2 == some "m.replace"),
      isValidReplacementEvent original item.2 = true →
        ∃ roomId, roomIdOrHash item.2 = .ok roomId := by
    intro item _ valid
    have valid := (isValidReplacementEvent_iff noState isOriginal).mp valid
    rw [roomIdOrHash_isOk_iff, valid.room, valid.kind]
    exact roomIdOrHash_isOk_iff.mp ⟨roomId, isRoom⟩
  obtain ⟨final, ends, recent⟩ := @findMostRecent_spec services userId original
    _ rooms none
  have missing (isFinal : final = none) (other : Pdu) :
      ¬ EditOf services userId data roomId original other := by
    intro edit
    obtain ⟨item, member, rfl, good⟩ := (editOf_iff noState isOriginal).mp edit
    obtain ⟨_, isSome, _⟩ := recent.above item member good
    cases isFinal.symm.trans isSome
  have unfolded : getBundledAggregations services userId data original =
      (let replaceEvents := (relationsOf data roomId original).filter
        (fun relation => relType relation.2 == some "m.replace")
      let referenceEvents := (relationsOf data roomId original).filter
        (fun relation => relType relation.2 == some "m.reference")
      if replaceEvents.isEmpty && referenceEvents.isEmpty then .ok none
      else
        let chunk := referenceEvents.map (fun relation => relation.2.eventId)
        .ok (some ⟨final, if chunk.isEmpty then none else chunk⟩)) := by
    unfold getBundledAggregations
    rw [noState, isOriginal, isRoom]
    change (if _ then _ else do
      let replace ← findMostRecentValidReplacement services userId original
        none ((relationsOf data roomId original).filter
          (fun relation => relType relation.2 == some "m.replace"))
      _) = _
    rw [ends]
    rfl
  rw [unfolded]
  dsimp only
  split
  · rename_i nothing
    rw [Bool.and_eq_true, List.isEmpty_iff] at nothing
    rw [nothing.1] at recent
    refine ⟨none, rfl, fun edit isEdit => ?_, fun _ => missing ?_⟩
    · cases isEdit
    · refine Option.eq_none_iff_forall_ne_some.mpr fun edit isFinal => ?_
      rcases recent.among edit isFinal with same | inside
      · cases same
      · exact absurd inside.choose_spec.1 not_mem_nil
  · refine ⟨_, rfl, fun edit isEdit => ?_, missing⟩
    rcases recent.among edit isEdit with same | inside
    · cases same
    · refine ⟨(editOf_iff noState isOriginal).mpr inside, fun other isOther =>
        ?_⟩
      obtain ⟨item, member, rfl, good⟩ :=
        (editOf_iff noState isOriginal).mp isOther
      obtain ⟨top, isTop, below⟩ := recent.above item member good
      rwa [Option.some.inj (isEdit.symm.trans isTop)]

end

namespace Thread

open Rooms.Relations.Thread (message first second)

def services : Messages.Services where
  ourServer := "h"
  ignoreMessagesFromServerNames _ := false
  sendMessagesFromIgnoredUsersToClient := false
  isIgnoredMessageType _ := false
  userIsIgnored _ _ := false
  pduShortstatehash _ := none
  historyVisibility _ := none
  userWasInvited _ _ := true
  userWasJoined _ _ := true
  isJoined _ _ := true

def edit : Pdu :=
  { message with
    eventId := "$edit"
    originServerTs := 1
    content := .obj [("m.relates_to", .obj [("rel_type", .str "m.replace")]),
      ("m.new_content", .obj [])] }

def data : PduMetadata where
  tofromRelation := .ofList [(second, first)]
  getShortroomid _ := some 7
  getPduCount _ := some first.1
  getPduFromId _ := some edit

theorem edit_bundled :
    (roomIdOrHash message = .ok "!room" ∧ message.stateKey = none ∧
      isReplacementEvent message = false) ∧
    ∃ bundled, getBundledAggregations services "@alice" data message =
        .ok bundled ∧
      (∀ edit, bundled.bind BundledRelations.replace = some edit →
        EditOf services "@alice" data "!room" message edit ∧
        ∀ other, EditOf services "@alice" data "!room" message other →
          recency other ≤ recency edit) ∧
      (bundled.bind BundledRelations.replace = none →
        ∀ other, ¬ EditOf services "@alice" data "!room" message other) :=
  ⟨⟨rfl, rfl, rfl⟩, getBundledAggregations_replace rfl rfl rfl⟩

end Thread

end ArcanaServer.Api.Relations
