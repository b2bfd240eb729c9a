import ArcanaServer.StateRes.AuthLocality
import ArcanaServer.Timeline.Append

namespace ArcanaServer.Timeline

open Library ArcanaServer.Matrix Rooms MemberServices

section

variable {Digest : Type}

/-! What each step behind the insertion of an event writes, and when it
fails. -/

namespace TimelineWorld

variable (world : TimelineWorld Digest)

def Located (pdu : Pdu) (eventId : EventId) : Prop :=
  eventId = pdu.eventId ∨ (world.room.eventidPduid eventId).isSome

def Counted (pdu : Pdu) (eventId : EventId) : Prop :=
  eventId = pdu.eventId ∨ ∃ count, world.pduCount eventId = some (.normal count)

def pdusWith (pdu : Pdu) : EventId → Option Pdu :=
  Function.update world.room.pdus pdu.eventId (some pdu)

def Related (target : EventId) (count : Nat) : Prop :=
  ∃ targetCount, world.pduCount target = some (.normal targetCount) ∧
    world.tofromRelation (targetCount, count) = true

/-- What the later steps ask of the world that the insertion leaves. -/
structure Inserted (before : TimelineWorld Digest) (pdu : Pdu)
    (world : TimelineWorld Digest) : Prop where
  located : ∀ eventId, (world.room.eventidPduid eventId).isSome ↔
    before.Located pdu eventId
  counted : ∀ eventId,
    (∃ count, world.pduCount eventId = some (.normal count)) ↔
      before.Counted pdu eventId
  present : ∀ eventId, (world.room.pdus eventId).isSome =
    (before.pdusWith pdu eventId).isSome

variable {before world after : TimelineWorld Digest} {pdu : Pdu}

theorem Inserted.placed (inserted : Inserted before pdu world)
    (placed : Placed world after) : Inserted before pdu after where
  located eventId := by
    rw [placed.eventidPduid]
    exact inserted.located eventId
  counted eventId := by
    rw [placed.pduCount]
    exact inserted.counted eventId
  present eventId := (placed.pdus eventId).trans (inserted.present eventId)

theorem Related.steady {target : EventId} {count : Nat}
    (related : world.Related target count) (steady : Steady world after) :
    after.Related target count := by
  obtain ⟨targetCount, place, row⟩ := related
  rw [← steady.pduCount] at place
  exact ⟨targetCount, place, steady.tofromRelation _ row⟩

end TimelineWorld

open TimelineWorld

namespace AppendServices

variable {services : AppendServices} {pdu : Pdu} {roomId : RoomId}
  {pduId : PduId} {shortroomid : ShortId}
  {before world : TimelineWorld Digest}

def RelatesTo (services : AppendServices) (pdu : Pdu) (target : EventId) :
    Prop :=
  extractRelatesToEventId services.ruma pdu.content = some target ∨
    services.relation pdu.content = some (.reply target)

section

variable (services : AppendServices) (before : TimelineWorld Digest) (pdu : Pdu)

def Redactable (eventId : EventId) : Prop :=
  before.Located pdu eventId → ∃ target redacted,
    before.pdusWith pdu eventId = some target ∧
      services.redactedForm target pdu = .ok redacted

def AllowedFine (roomId : RoomId) (eventId : EventId) : Prop :=
  ∃ allowed,
    services.userCanRedact (before.pdusWith pdu) eventId pdu.sender roomId =
      .ok allowed ∧
    (allowed = true → services.Redactable before pdu eventId)

def RedactionFine (roomId : RoomId) : Prop :=
  ∃ redacts, services.redactId pdu roomId = .ok redacts ∧
    ∀ eventId, redacts = some eventId →
      services.AllowedFine before pdu roomId eventId

structure KindFine (roomId : RoomId) : Prop where
  redaction : pdu.kind = .roomRedaction →
    services.RedactionFine before pdu roomId
  member : pdu.kind = .roomMember → ∀ userId, pdu.stateKey = some userId →
    ∃ membership, services.members.Applies services.ruma before.members roomId
      userId pdu membership
  message : pdu.kind = roomMessage → extractBody pdu.content ≠ none

def ThreadFine : Prop :=
  ∀ root, services.relation pdu.content = some (.thread root) →
    before.Located pdu root ∧ (before.pdusWith pdu root).isSome

end

variable {bad : AppendError → TimelineWorld Digest → Prop}

/-- It cannot fail, whatever is asked of failures. -/
theorem relateTo_spec (count : Nat) (target : EventId)
    (world : TimelineWorld Digest) :
    Meets (fun _ after => Steady world after ∧
        ((∃ targetCount, world.pduCount target = some (.normal targetCount)) →
          after.Related target count))
      bad (relateTo count target world) := by
  unfold relateTo
  rw [get_bind]
  cases place : world.pduCount target with
  | none =>
      refine ⟨refl_of Steady world, ?_⟩
      intro counted
      obtain ⟨_, same⟩ := counted
      cases same
  | some position =>
      have steady := steady_addRelation (.normal count) position world
      refine ⟨steady, ?_⟩
      intro counted
      obtain ⟨targetCount, same⟩ := counted
      cases same
      refine ⟨targetCount, ?_, ?_⟩
      · rw [steady.pduCount]
        exact place
      · exact Function.update_self _ _ _

theorem addToThread_spec (root : EventId) (pdu : Pdu)
    (inserted : Inserted before pdu world) :
    Meets (fun _ after => Steady world after ∧
        before.Located pdu root ∧ (before.pdusWith pdu root).isSome)
      (fun _ after => Steady world after ∧
        ¬ (before.Located pdu root ∧ (before.pdusWith pdu root).isSome))
      (addToThread root pdu world) := by
  unfold addToThread
  rw [get_bind]
  have located := inserted.located root
  have present := inserted.present root
  cases place : world.room.eventidPduid root with
  | none =>
      rw [place] at located
      refine ⟨refl_of Steady world, ?_⟩
      intro fine
      exact absurd (located.mpr fine.1) (by simp)
  | some rootId =>
      rw [place] at located
      cases found : world.room.pdus root with
      | none =>
          rw [found] at present
          refine ⟨refl_of Steady world, ?_⟩
          intro fine
          exact absurd (present.trans fine.2) (by simp)
      | some rootPdu =>
          rw [found] at present
          exact ⟨steady_updateParticipants _ _ world, located.mp rfl,
            present.symm⟩

theorem relateDirect_spec (count : Nat) (inserted : Inserted before pdu world) :
    Meets (fun _ after => Steady world after ∧ ∀ target,
        extractRelatesToEventId services.ruma pdu.content = some target →
          before.Counted pdu target → after.Related target count)
      bad (services.relateDirect pdu count world) := by
  unfold relateDirect
  cases extracted : extractRelatesToEventId services.ruma pdu.content with
  | none =>
      refine ⟨refl_of Steady world, ?_⟩
      intro target same
      cases same
  | some eventId =>
      refine (relateTo_spec count eventId world).mono ?_ (fun _ _ => id)
      intro _ after found
      refine ⟨found.1, ?_⟩
      intro target same counted
      cases same
      exact found.2 ((inserted.counted eventId).mpr counted)

theorem applyRelations_spec (count : Nat)
    (inserted : Inserted before pdu world) :
    Meets (fun _ after => Steady world after ∧ services.ThreadFine before pdu ∧
        ∀ target, services.RelatesTo pdu target →
          before.Counted pdu target → after.Related target count)
      (fun _ after => Steady world after ∧ ¬ services.ThreadFine before pdu)
      (services.applyRelations pdu count world) := by
  unfold applyRelations
  refine (relateDirect_spec count inserted).bind ?_
  intro _ middle found
  obtain ⟨steady, related⟩ := found
  have behind := inserted.placed steady.toPlaced
  unfold RelatesTo ThreadFine
  cases relation : services.relation pdu.content with
  | none =>
      refine ⟨steady, by simp, ?_⟩
      intro target relates counted
      exact related target (relates.resolve_right (by simp)) counted
  | some kind =>
      cases kind with
      | other =>
          refine ⟨steady, by simp, ?_⟩
          intro target relates counted
          exact related target (relates.resolve_right (by simp)) counted
      | reply inReplyTo =>
          refine (relateTo_spec count inReplyTo middle).mono ?_ (fun _ _ => id)
          intro _ after replied
          refine ⟨trans_of Steady steady replied.1, by simp, ?_⟩
          intro target relates counted
          rcases relates with direct | reply
          · exact (related target direct counted).steady replied.1
          · cases reply
            exact replied.2 ((behind.counted inReplyTo).mpr counted)
      | thread root =>
          refine (addToThread_spec root pdu behind).mono ?_ ?_
          · intro _ after threaded
            refine ⟨trans_of Steady steady threaded.1, ?_, ?_⟩
            · intro other same
              cases same
              exact threaded.2
            · intro target relates counted
              have direct := relates.resolve_right (by simp)
              exact (related target direct counted).steady threaded.1
          · intro _ after threaded
            refine ⟨trans_of Steady steady threaded.1, ?_⟩
            intro fine
            exact threaded.2 (fine root rfl)

theorem sendPduAppservice_spec (pduId : PduId) (appserviceId : String)
    (world : TimelineWorld Digest) :
    Meets (fun _ after => Steady world after ∧
        services.dispatch appserviceId = .ok ())
      (fun _ after => Steady world after ∧
        ¬ services.dispatch appserviceId = .ok ())
      (services.sendPduAppservice pduId appserviceId world) := by
  have queued := steady_queuePdu appserviceId pduId world
  have rest : services.sendPduAppservice pduId appserviceId world =
      (liftExcept ((services.dispatch appserviceId).mapError
        AppendError.sending) : Appending Digest Unit)
        (world.queuePdu appserviceId pduId) := rfl
  rw [rest]
  cases dispatched : services.dispatch appserviceId with
  | ok => exact ⟨queued, rfl⟩
  | error error =>
      refine ⟨queued, ?_⟩
      intro fine
      cases fine

theorem sendAll_spec (pduId : PduId) (appserviceIds : List String)
    (world : TimelineWorld Digest) :
    Meets (fun _ after => Steady world after ∧
        ∀ appserviceId ∈ appserviceIds, services.dispatch appserviceId = .ok ())
      (fun _ after => Steady world after ∧ ¬ ∀ appserviceId ∈ appserviceIds,
        services.dispatch appserviceId = .ok ())
      (appserviceIds.forM (services.sendPduAppservice pduId) world) := by
  refine Meets.forM (fun visited after => Steady world after ∧
    ∀ appserviceId ∈ visited, services.dispatch appserviceId = .ok ())
    ?_ appserviceIds [] world rfl ⟨refl_of Steady world, by simp⟩
  intro visited appserviceId rest state whole holds
  obtain ⟨steady, sent⟩ := holds
  refine (sendPduAppservice_spec pduId appserviceId state).mono ?_ ?_
  · intro _ after found
    refine ⟨trans_of Steady steady found.1, ?_⟩
    intro other member
    rw [List.mem_append, List.mem_singleton] at member
    rcases member with earlier | here
    · exact sent other earlier
    · exact here ▸ found.2
  · intro _ after found
    refine ⟨trans_of Steady steady found.1, ?_⟩
    intro every
    refine found.2 (every appserviceId ?_)
    rw [whole]
    exact List.mem_append_right visited List.mem_cons_self

theorem replaceRedacted_spec {eventId : EventId} {targetId : PduId}
    {target : Pdu} {world : TimelineWorld Digest}
    (found : world.room.pdus eventId = some target) :
    Meets (fun _ after => Placed world after ∧
        ∃ redacted, services.redactedForm target pdu = .ok redacted)
      (fun _ after => Placed world after ∧
        ¬ ∃ redacted, services.redactedForm target pdu = .ok redacted)
      (services.replaceRedacted eventId targetId target pdu world) := by
  refine Meets.lift_bind ?_ ?_
  · intro error form
    refine ⟨refl_of Placed world, ?_⟩
    intro formed
    obtain ⟨redacted, formed⟩ := formed
    exact absurd (form.symm.trans formed) (by simp)
  · intro redacted form
    have present := Option.isSome_of_eq_some found
    exact ⟨placed_replacePdu present, redacted, form⟩

section

variable {eventId : EventId} (inserted : Inserted before pdu world)
  (pdus : world.room.pdus = before.pdusWith pdu)
include inserted pdus

theorem redactPdu_spec :
    Meets (fun _ after => Placed world after ∧
        services.Redactable before pdu eventId)
      (fun _ after => Placed world after ∧
        ¬ services.Redactable before pdu eventId)
      (services.redactPdu eventId pdu shortroomid world) := by
  unfold redactPdu
  rw [get_bind]
  have located := inserted.located eventId
  cases place : world.room.eventidPduid eventId with
  | none =>
      refine ⟨refl_of Placed world, ?_⟩
      intro there
      rw [place] at located
      exact absurd (located.mpr there) (by simp)
  | some targetId =>
      rw [place] at located
      have there := located.mp rfl
      cases found : world.room.pdus eventId with
      | none =>
          refine ⟨refl_of Placed world, ?_⟩
          intro redactable
          obtain ⟨target, _, same, _⟩ := redactable there
          rw [← pdus, found] at same
          cases same
      | some target =>
          let deindexed := world.deindexPdu
            (((extractBody target.content).join.map services.tokenize).getD [])
            shortroomid targetId
          have placed : Placed world deindexed := placed_of_tables rfl rfl
          have still : deindexed.room.pdus eventId = some target := found
          refine (replaceRedacted_spec still).mono ?_ ?_
          · intro _ after replaced
            obtain ⟨later, redacted, form⟩ := replaced
            refine ⟨trans_of Placed placed later, ?_⟩
            intro _
            exact ⟨target, redacted, pdus ▸ found, form⟩
          · intro _ after replaced
            refine ⟨trans_of Placed placed replaced.1, ?_⟩
            intro redactable
            obtain ⟨other, redacted, same, form⟩ := redactable there
            rw [← pdus, found] at same
            cases same
            exact replaced.2 ⟨redacted, form⟩

theorem redactAllowed_spec :
    Meets (fun _ after => Placed world after ∧
        services.AllowedFine before pdu roomId eventId)
      (fun _ after => Placed world after ∧
        ¬ services.AllowedFine before pdu roomId eventId)
      (services.redactAllowed pdu shortroomid roomId eventId world) := by
  unfold redactAllowed
  rw [get_bind, pdus]
  refine Meets.lift_bind ?_ ?_
  · intro error refused
    refine ⟨refl_of Placed world, ?_⟩
    intro fine
    obtain ⟨allowed, answer, _⟩ := fine
    exact absurd (refused.symm.trans answer) (by simp)
  · intro allowed answer
    cases allowed with
    | false =>
        exact ⟨refl_of Placed world, false, answer,
          fun impossible => nomatch impossible⟩
    | true =>
        refine Meets.mono (redactPdu_spec inserted pdus) ?_ ?_
        · intro _ after found
          exact ⟨found.1, true, answer, fun _ => found.2⟩
        · intro _ after found
          refine ⟨found.1, ?_⟩
          intro fine
          obtain ⟨other, same, redactable⟩ := fine
          cases Except.ok.inj (answer.symm.trans same)
          exact found.2 (redactable rfl)

end

theorem applyRedaction_spec (inserted : Inserted before pdu world)
    (pdus : world.room.pdus = before.pdusWith pdu) :
    Meets (fun _ after => Placed world after ∧
        services.RedactionFine before pdu roomId)
      (fun _ after => Placed world after ∧
        ¬ services.RedactionFine before pdu roomId)
      (services.applyRedaction pdu shortroomid roomId world) := by
  refine Meets.lift_bind ?_ ?_
  · intro error unnamed
    refine ⟨refl_of Placed world, ?_⟩
    intro fine
    obtain ⟨redacts, named, _⟩ := fine
    exact absurd (unnamed.symm.trans named) (by simp)
  · intro redacts named
    cases redacts with
    | none =>
        exact ⟨refl_of Placed world, none, named,
          fun _ impossible => nomatch impossible⟩
    | some eventId =>
        refine (redactAllowed_spec inserted pdus).mono ?_ ?_
        · intro _ after found
          refine ⟨found.1, some eventId, named, ?_⟩
          intro other here
          cases here
          exact found.2
        · intro _ after found
          refine ⟨found.1, ?_⟩
          intro fine
          obtain ⟨other, same, every⟩ := fine
          have equal := Except.ok.inj (named.symm.trans same)
          exact found.2 (every eventId equal.symm)

/-- What the match on the type of the event has written. -/
structure KindDone (services : AppendServices) (pdu : Pdu)
    (shortroomid : ShortId) (pduId : PduId) (roomId : RoomId)
    (world after : TimelineWorld Digest) : Prop where
  searched : pdu.kind = roomMessage → ∀ body,
    extractBody pdu.content = some (some body) →
    ∀ word ∈ services.tokenize body,
      after.tokenids (shortroomid, word, pduId) = true
  cached : pdu.kind = .roomMember → ∀ userId, pdu.stateKey = some userId →
    ∃ membership, services.members.Applies services.ruma world.members roomId
      userId pdu membership ∧
    after.members.cache = services.members.recount roomId true
      (services.members.settle roomId userId pdu membership
        world.memberTables.cache)

theorem mem_indexPdu {words : List String} {word : String}
    {shortroomid : ShortId} {pduId : PduId} {world : TimelineWorld Digest}
    (known : word ∈ words ∨ world.tokenids (shortroomid, word, pduId) = true) :
    (world.indexPdu words shortroomid pduId).tokenids
      (shortroomid, word, pduId) = true := by
  unfold indexPdu
  change words.foldl _ world.tokenids _ = true
  generalize world.tokenids = tokens at known
  induction words generalizing tokens with
  | nil => exact known.resolve_left List.not_mem_nil
  | cons first rest inductionHypothesis =>
      rw [List.foldl_cons]
      apply inductionHypothesis
      rcases known with listed | noted
      · rcases List.mem_cons.mp listed with here | later
        · right
          rw [here, Function.update_self]
        · exact .inl later
      · exact .inr (update_true noted)

theorem applyMember_spec (world : TimelineWorld Digest) : Meets
      (fun _ after => Placed world after ∧ ∀ userId,
        pdu.stateKey = some userId → ∃ membership,
          services.members.Applies services.ruma world.members roomId userId
            pdu membership ∧
          after.members.cache = services.members.recount roomId true
            (services.members.settle roomId userId pdu membership
              world.memberTables.cache))
      (fun _ after => Placed world after ∧ ¬ ∀ userId,
        pdu.stateKey = some userId → ∃ membership,
          services.members.Applies services.ruma world.members roomId userId
            pdu membership)
      (services.applyMember pdu roomId world) := by
  unfold applyMember
  cases target : pdu.stateKey with
  | none => exact ⟨refl_of Placed world, fun _ impossible => nomatch impossible⟩
  | some userId =>
      have updated := updateMembership_spec services.ruma
        services.members roomId userId pdu true world.memberTables
      cases result : services.members.updateMembership services.ruma roomId
          userId pdu true world.memberTables with
      | ok value members =>
          rw [result] at updated
          simp only [result]
          refine ⟨placed_withMembers members world, ?_⟩
          intro other same
          cases same
          exact updated.2
      | error error members =>
          rw [result] at updated
          simp only [result]
          refine ⟨placed_withMembers members world, ?_⟩
          intro every
          obtain ⟨membership, applies⟩ := every userId rfl
          exact updated.2.2 membership applies

theorem applyMessage_spec (world : TimelineWorld Digest) : Meets
      (fun _ after => Placed world after ∧ extractBody pdu.content ≠ none ∧
        ∀ body, extractBody pdu.content = some (some body) →
          ∀ word ∈ services.tokenize body,
            after.tokenids (shortroomid, word, pduId) = true)
      (fun _ after => Placed world after ∧ ¬ extractBody pdu.content ≠ none)
      (services.applyMessage pdu shortroomid pduId world) := by
  unfold applyMessage
  cases extracted : extractBody pdu.content with
  | none => exact ⟨refl_of Placed world, fun read => read rfl⟩
  | some read =>
      cases read with
      | none =>
          refine ⟨refl_of Placed world, by simp, ?_⟩
          intro body same
          cases same
      | some text =>
          refine ⟨placed_of_tables rfl rfl, by simp, ?_⟩
          intro body same word listed
          cases same
          exact mem_indexPdu (.inl listed)

section

variable (inserted : Inserted before pdu world)
  (pdus : world.room.pdus = before.pdusWith pdu)
  (members : world.members = before.members)
include inserted pdus members

theorem applyKind_spec :
    Meets
      (fun _ after => Placed world after ∧ services.KindFine before pdu roomId ∧
        services.KindDone pdu shortroomid pduId roomId world after)
      (fun _ after => Placed world after ∧
        ¬ services.KindFine before pdu roomId)
      (services.applyKind pdu shortroomid pduId roomId world) := by
  unfold applyKind
  split
  next redaction =>
    refine (applyRedaction_spec inserted pdus).mono ?_ ?_
    · intro _ after found
      refine ⟨found.1, ⟨fun _ => found.2, ?_, ?_⟩, ⟨?_, ?_⟩⟩ <;>
        intro kind <;> exact absurd (redaction.symm.trans kind) (by decide)
    · intro _ after found
      exact ⟨found.1, fun fine => found.2 (fine.redaction redaction)⟩
  next redaction =>
    split
    next child =>
      have fine : services.KindFine before pdu roomId := by
        refine ⟨?_, ?_, ?_⟩ <;>
          intro kind <;> exact absurd (child.symm.trans kind) (by decide)
      have done : ∀ after, services.KindDone pdu shortroomid pduId roomId
          world after := by
        intro after
        refine ⟨?_, ?_⟩ <;>
          intro kind <;> exact absurd (child.symm.trans kind) (by decide)
      split
      · exact ⟨placed_of_tables rfl rfl, fine, done _⟩
      · exact ⟨refl_of Placed world, fine, done _⟩
    next child =>
      split
      next member =>
        refine (applyMember_spec world).mono ?_ ?_
        · intro _ after found
          refine ⟨found.1, ⟨fun kind => absurd kind redaction, ?_, ?_⟩,
            ⟨?_, fun _ => found.2⟩⟩
          · intro _ userId target
            obtain ⟨membership, applies, _⟩ := found.2 userId target
            exact ⟨membership, members ▸ applies⟩
          · intro kind
            exact absurd (member.symm.trans kind) (by decide)
          · intro kind
            exact absurd (member.symm.trans kind) (by decide)
        · intro _ after found
          refine ⟨found.1, fun fine => found.2 ?_⟩
          rw [members]
          exact fine.member member
      next member =>
        split
        next message =>
          refine (applyMessage_spec world).mono ?_ ?_
          · intro _ after found
            exact ⟨found.1, ⟨fun kind => absurd kind redaction,
              fun kind => absurd kind member, fun _ => found.2.1⟩,
              fun _ => found.2.2, fun kind => absurd kind member⟩
          · intro _ after found
            exact ⟨found.1, fun fine => found.2 (fine.message message)⟩
        next message =>
          exact ⟨refl_of Placed world, ⟨fun kind => absurd kind redaction,
            fun kind => absurd kind member,
            fun kind => absurd kind message⟩,
            fun kind => absurd kind message,
            fun kind => absurd kind member⟩

/-- No step behind the insertion fails. -/
structure NothingFails (services : AppendServices)
    (before : TimelineWorld Digest) (pdu : Pdu) (roomId : RoomId) : Prop where
  target : services.checkTarget pdu = .ok ()
  kind : services.KindFine before pdu roomId
  thread : services.ThreadFine before pdu
  sent : ∀ appserviceId ∈ services.interested pdu roomId,
    services.dispatch appserviceId = .ok ()

theorem finishPdu_spec :
    Meets (fun _ after => Placed world after ∧
        services.NothingFails before pdu roomId ∧
        services.KindDone pdu shortroomid pduId roomId world after ∧
        ∀ target, services.RelatesTo pdu target →
          before.Counted pdu target → after.Related target pduId.2)
      (fun _ after => Placed world after ∧
        ¬ services.NothingFails before pdu roomId)
      (services.finishPdu pdu shortroomid pduId roomId world) := by
  refine Meets.lift_bind ?_ ?_
  · intro error bad
    refine ⟨refl_of Placed world, ?_⟩
    intro fine
    exact absurd (bad.symm.trans fine.target) (by simp)
  intro _ target
  let notified := world.incrementNotificationCounts roomId
    (services.notified pdu).1 (services.notified pdu).2
  have steady : Steady world notified :=
    steady_incrementNotificationCounts roomId _ _ world
  have kind : Meets
      (fun _ after => Placed world after ∧ services.KindFine before pdu roomId ∧
        services.KindDone pdu shortroomid pduId roomId world after)
      (fun _ after => Placed world after ∧
        ¬ services.NothingFails before pdu roomId)
      (services.applyKind pdu shortroomid pduId roomId notified) := by
    refine (applyKind_spec (inserted.placed steady.toPlaced) pdus
      members).mono ?_ ?_
    · intro _ after found
      obtain ⟨placed, fine, done⟩ := found
      exact ⟨trans_of Placed steady.toPlaced placed, fine, done.searched,
        done.cached⟩
    · intro _ after found
      exact ⟨trans_of Placed steady.toPlaced found.1,
        fun fine => found.2 fine.kind⟩
  refine kind.bind ?_
  intro _ second kept
  obtain ⟨placed, fine, done⟩ := kept
  have relations : Meets
      (fun _ after => Steady second after ∧ services.ThreadFine before pdu ∧
        ∀ target, services.RelatesTo pdu target →
          before.Counted pdu target → after.Related target pduId.2)
      (fun _ after => Placed world after ∧
        ¬ services.NothingFails before pdu roomId)
      (services.applyRelations pdu pduId.2 second) := by
    refine (applyRelations_spec pduId.2 (inserted.placed placed)).mono
      (fun _ _ => id) ?_
    intro _ after found
    exact ⟨trans_of Placed placed found.1.toPlaced,
      fun fine => found.2 fine.thread⟩
  refine relations.bind ?_
  intro _ third kept
  obtain ⟨steady, thread, related⟩ := kept
  refine (sendAll_spec pduId (services.interested pdu roomId) third).mono ?_ ?_
  · intro _ after found
    obtain ⟨later, sent⟩ := found
    have both : Steady second after := trans_of Steady steady later
    refine ⟨trans_of Placed placed both.toPlaced, ⟨target, fine, thread, sent⟩,
      ⟨?_, ?_⟩, ?_⟩
    · rw [both.tokenids]
      exact done.searched
    · rw [both.members]
      exact done.cached
    · intro target relates counted
      exact (related target relates counted).steady later
  · intro _ after found
    have both : Steady second after := trans_of Steady steady found.1
    exact ⟨trans_of Placed placed both.toPlaced, fun fine => found.2 fine.sent⟩

end

end AppendServices

end

open TimelineWorld Function
open StateRes (FetchState RoomVersion authCheck)

variable {Digest : Type}

/-! Whether an event is appended as a whole or not at all. -/

namespace TimelineWorld

/-- The event has no place in the timeline, and what it refers to is not
noted either. -/
structure Untouched (before after : TimelineWorld Digest) : Prop where
  timeline : after.room.timeline = before.room.timeline
  eventidPduid : after.room.eventidPduid = before.room.eventidPduid
  pduleaves : after.room.pduleaves = before.room.pduleaves
  referencedevents : after.room.referencedevents = before.room.referencedevents

end TimelineWorld

namespace AppendServices

variable {services : AppendServices} {pdu : Pdu} {leaves : List EventId}
  {roomId : RoomId} {before : TimelineWorld Digest}

section

variable (services : AppendServices) (pdu : Pdu) (roomId : RoomId)
  (before : TimelineWorld Digest)

/-- The indexes of relations, of words and of memberships know of the event. -/
structure Indexed (pduId : PduId) (after : TimelineWorld Digest) : Prop where
  bound : after.room.eventidPduid pdu.eventId = some pduId
  related : ∀ target, services.RelatesTo pdu target →
    after.Related target pduId.2
  searched : pdu.kind = roomMessage → ∀ body,
    extractBody pdu.content = some (some body) →
    ∀ shortroomid, before.room.roomidShortroomid roomId = some shortroomid →
    ∀ word ∈ services.tokenize body,
      after.tokenids (shortroomid, word, pduId) = true
  shown : pdu.kind = .roomMember → ∀ userId, pdu.stateKey = some userId →
    ∀ membership, services.ruma.roomMember pdu.content = some membership →
    (∀ name, membership ≠ .custom name) →
    after.members.cache.Stands (userId, roomId)
      (services.members.standingOf (userId, roomId) membership)

def AllOrNothing :
    EStateM.Result AppendError (TimelineWorld Digest) PduId → Prop :=
  Meets (services.Indexed pdu roomId before)
    (fun _ after => Untouched before after)

def StopsEarly : Prop :=
  before.room.roomidShortroomid roomId = none ∨
    services.checkPrevContent pdu ≠ .ok ()

structure Traceable (pdu : Pdu) (roomId : RoomId) : Prop where
  counted : ∀ target, services.RelatesTo pdu target → before.Counted pdu target
  knocked : pdu.kind = .roomMember → ∀ userId, pdu.stateKey = some userId →
    services.ruma.roomMember pdu.content = some .knock →
    before.members.cache.Stands (userId, roomId) (some .knocked)

def Smooth : Prop :=
  services.StopsEarly pdu roomId before ∨
    services.NothingFails before pdu roomId ∧
      services.Traceable before pdu roomId

end

theorem insertEvent_spec (pdu : Pdu) (leaves : List EventId) (roomId : RoomId)
    (before : TimelineWorld Digest) :
    ∃ count world, insertEvent pdu leaves roomId before = .ok count world ∧
      Inserted before pdu world ∧
      world.room.pdus = before.pdusWith pdu ∧
      world.members = before.members ∧
      world.room.eventidPduid pdu.eventId = some (roomId, count) ∧
      (world.room.timeline roomId).length =
        (before.room.timeline roomId).length + 1 := by
  refine ⟨_, _, rfl, ⟨?_, ?_, fun _ => rfl⟩, rfl, rfl, ?_, ?_⟩
  · intro eventId
    change (update before.room.eventidPduid pdu.eventId _ eventId).isSome ↔ _
    unfold Located
    rw [update_apply]
    split
    next here => exact iff_of_true rfl (.inl here)
    next elsewhere => exact (or_iff_right elsewhere).symm
  · intro eventId
    unfold Counted TimelineWorld.pduCount
    change (∃ count, (update before.room.eventidPduid pdu.eventId _
      eventId).map (fun pduId : PduId =>
        if update before.backfilled pdu.eventId false eventId then
          PduCount.backfilled pduId.2
        else .normal pduId.2) = some (.normal count)) ↔ _
    rw [update_apply, update_apply]
    split
    next here => exact iff_of_true ⟨_, rfl⟩ (.inl here)
    next elsewhere => exact (or_iff_right elsewhere).symm
  · exact update_self _ _ _
  · change (update before.room.timeline roomId _ roomId).length = _
    rw [update_self, List.length_append, List.length_singleton]
    rfl

theorem Untouched.not_longer {after : TimelineWorld Digest}
    (longer : (after.room.timeline roomId).length =
      (before.room.timeline roomId).length + 1) :
    ¬ Untouched before after := by
  intro untouched
  rw [untouched.timeline] at longer
  exact absurd longer.symm (Nat.succ_ne_self _)

theorem indexed_iff {pduId : PduId} {shortroomid : ShortId}
    {world after : TimelineWorld Digest}
    (room : before.room.roomidShortroomid roomId = some shortroomid)
    (inserted : Inserted before pdu world)
    (members : world.members = before.members)
    (bound : world.room.eventidPduid pdu.eventId = some pduId)
    (placed : Placed world after)
    (done : services.KindDone pdu shortroomid pduId roomId world after)
    (related : ∀ target, services.RelatesTo pdu target →
      before.Counted pdu target → after.Related target pduId.2) :
    services.Indexed pdu roomId before pduId after ↔
      services.Traceable before pdu roomId := by
  constructor
  · intro indexed
    refine ⟨?_, ?_⟩
    · intro target relates
      obtain ⟨count, place, _⟩ := indexed.related target relates
      exact ((inserted.placed placed).counted target).mp ⟨count, place⟩
    · intro member userId target knocks
      obtain ⟨membership, applies, cache⟩ := done.cached member userId target
      have isKnock := Option.some.inj (applies.1.symm.trans knocks)
      have shown := indexed.shown member userId target .knock knocks
        (fun _ impossible => nomatch impossible)
      rw [cache, isKnock, stands_recount] at shown
      rw [← members]
      exact shown
  · intro traceable
    refine ⟨?_, ?_, ?_, ?_⟩
    · rw [placed.eventidPduid]
      exact bound
    · intro target relates
      exact related target relates (traceable.counted target relates)
    · intro message body extracted other same word listed
      cases room.symm.trans same
      exact done.searched message body extracted word listed
    · intro member userId target membership content listed
      obtain ⟨other, applies, cache⟩ := done.cached member userId target
      cases Option.some.inj (content.symm.trans applies.1)
      rw [cache, stands_recount]
      by_cases knocks : membership = .knock
      · subst knocks
        have stands := traceable.knocked member userId target content
        rw [← members] at stands
        exact stands
      · refine stands_settle applies.2 ?_
        intro ignored
        cases membership with
        | knock => exact knocks rfl
        | custom name => exact listed name rfl
        | join | invite | leave | ban => exact ignored

theorem insertAndFinish_spec {shortroomid : ShortId}
    (room : before.room.roomidShortroomid roomId = some shortroomid) :
    Meets (fun pduId after => services.NothingFails before pdu roomId ∧
        (services.Indexed pdu roomId before pduId after ↔
          services.Traceable before pdu roomId))
      (fun _ after => ¬ services.NothingFails before pdu roomId ∧
        ¬ Untouched before after)
      (services.insertAndFinish pdu leaves shortroomid roomId before) := by
  obtain ⟨count, world, isInserted, inserted, pdus, members, bound, longer⟩ :=
    insertEvent_spec pdu leaves roomId before
  unfold insertAndFinish
  rw [bind_of_ok _ isInserted]
  have finished : Meets
      (fun _ after => services.NothingFails before pdu roomId ∧
        (services.Indexed pdu roomId before (roomId, count) after ↔
          services.Traceable before pdu roomId))
      (fun _ after => ¬ services.NothingFails before pdu roomId ∧
        ¬ Untouched before after)
      (services.finishPdu pdu shortroomid (roomId, count) roomId world) := by
    refine (finishPdu_spec inserted pdus members).mono ?_ ?_
    · intro _ after found
      obtain ⟨placed, fine, done, related⟩ := found
      exact ⟨fine, indexed_iff room inserted members bound placed done related⟩
    · intro _ after found
      obtain ⟨placed, fails⟩ := found
      exact ⟨fails,
        Untouched.not_longer ((placed.timeline roomId).trans longer)⟩
  refine finished.bind ?_
  intro _ after found
  exact found

theorem appendPdu_allOrNothing_iff (services : AppendServices) (pdu : Pdu)
    (leaves : List EventId) (roomId : RoomId) (before : TimelineWorld Digest) :
    services.AllOrNothing pdu roomId before
        (services.appendPdu pdu leaves roomId before) ↔
      services.Smooth pdu roomId before := by
  have untouched : Untouched before before := ⟨rfl, rfl, rfl, rfl⟩
  unfold appendPdu
  rw [get_bind]
  cases room : before.room.roomidShortroomid roomId with
  | none => exact iff_of_true untouched (.inl (.inl room))
  | some shortroomid =>
      simp only
      cases checked : services.checkPrevContent pdu with
      | error error =>
          refine iff_of_true untouched (.inl (.inr ?_))
          rw [checked]
          intro impossible
          cases impossible
      | ok =>
          have goes : ¬ services.StopsEarly pdu roomId before := by
            intro stops
            rcases stops with missing | stopped
            · exact absurd (room.symm.trans missing) (by simp)
            · exact stopped checked
          unfold Smooth
          rw [or_iff_right goes]
          have decided : Meets _ _ (services.insertAndFinish pdu leaves
            shortroomid roomId before) := insertAndFinish_spec room
          change services.AllOrNothing pdu roomId before
            (services.insertAndFinish pdu leaves shortroomid roomId before) ↔ _
          cases result : services.insertAndFinish pdu leaves shortroomid roomId
              before with
          | ok pduId after =>
              rw [result] at decided
              exact decided.2.trans (and_iff_right decided.1).symm
          | error _ after =>
              rw [result] at decided
              exact iff_of_false decided.2 fun smooth => decided.1 smooth.1

def Accepted (services : AppendServices) (pdu : Pdu) : Prop :=
  ∃ roomVersion currentThirdPartyInvite fetchState createEvent,
    authCheck services.ruma roomVersion pdu currentThirdPartyInvite fetchState
      createEvent = .ok true

end AppendServices

namespace AliceMessage

def services : AppendServices where
  ruma := StateRes.plainRuma
  members := plainMembers
  prevContent := fun _ => none
  canonicalObject := fun _ => .ok ()
  roomStateGet := fun _ _ => none
  createContent := fun _ => none
  roomRedaction := fun _ => none
  userCanRedactOwnEvent := fun _ _ => false
  userCanRedactEventOfOther := fun _ _ => false
  redactContent := fun _ _ content => .ok content
  canonicalPdu := fun _ _ => .ok ()
  relation := fun _ => none
  tokenize := fun body => [body]
  notified := fun _ => ([], [])
  interested := fun _ _ => []
  dispatch := fun _ => .ok ()

def messagePdu : Pdu :=
  { Pdu.message "$message" "!room:h" "@alice:h" with
    originServerTs := 2, kind := roomMessage,
    content := .obj [("body", .int 5)], prevEvents := ["$join"],
    authEvents := ["$create", "$join"] }

def world : TimelineWorld Nat where
  room :=
    { RoomWorld.empty 4 with
      roomidShortroomid := fun roomId =>
        if roomId = "!room:h" then some 1 else none }
  members := MemberTables.empty
  backfilled := fun _ => false
  privateread := fun _ => none
  lastprivatereadupdate := fun _ => none
  highlightcount := fun _ => 0
  notificationcount := fun _ => 0
  lastnotificationread := fun _ => none
  tokenids := fun _ => false
  tofromRelation := fun _ => false
  threadidUserids := fun _ => none
  roomidSpacehierarchyCache := ∅
  queuedPdus := []

/-- The message is refused for its body when it is in the timeline. -/
theorem message_leaves_event :
    ¬ ∀ (services : AppendServices) (pdu : Pdu) (leaves : List EventId)
      (roomId : RoomId) (before : TimelineWorld Nat), services.Accepted pdu →
      services.AllOrNothing pdu roomId before
        (services.appendPdu pdu leaves roomId before) := by
  intro claimed
  have accepted : services.Accepted messagePdu :=
    ⟨RoomVersion.v11, none, StateRes.AliceRoom.state none,
      StateRes.AliceRoom.createPdu, rfl⟩
  have whole := claimed services messagePdu ["$message"] "!room:h" world
    accepted
  have refused : ∃ error after, services.appendPdu messagePdu ["$message"]
      "!room:h" world = .error error after ∧
      (after.room.timeline "!room:h").length = 1 :=
    ⟨_, _, rfl, rfl⟩
  obtain ⟨error, after, result, inserted⟩ := refused
  rw [result] at whole
  exact AppendServices.Untouched.not_longer inserted whole

end AliceMessage

end ArcanaServer.Timeline
