import ArcanaServer.Api.Messages
import ArcanaServer.Library.Descent
import ArcanaServer.StateRes.RoomVersion

namespace ArcanaServer.Api.MissingEvents

open Library ArcanaServer.Matrix
open Api.Messages.Services (roomIdOrHash)
open Relation List StateRes

/-! The events that another server is missing. -/

/-- `redactContent` fails on a content that cannot be redacted. -/
structure Services where
  accessCheck : ServerName → RoomId → Except String Unit
  serverInRoom : RoomId → Bool
  getRoomVersion : RoomId → Except String RoomVersionId
  redactContent : RoomVersionId → Pdu → Except String Json
  serverCanSeeEvent : ServerName → RoomId → EventId → Bool
  store : List Pdu

structure Request where
  origin : ServerName
  roomId : RoomId
  limit : Nat
  earliestEvents : List EventId
  latestEvents : List EventId

def limitMax : Nat := 50

def limitDefault : Nat := 10

/-- The default is for a limit that no `usize` holds. -/
def Request.limitOf (body : Request) : Nat :=
  min (if body.limit < 2 ^ 64 then body.limit else limitDefault) limitMax

section

variable (services : Services) (body : Request)

def getPdu (eventId : EventId) : Option Pdu :=
  services.store.find? (fun pdu => pdu.eventId = eventId)

/-- An event of the room, redacted if the other server cannot see it. -/
def outgoing (roomVersion : RoomVersionId) (pdu : Pdu) :
    Except String Pdu := do
  if (← roomIdOrHash pdu) ≠ body.roomId then
    throw ("Event " ++ pdu.eventId ++ " is not in room " ++ body.roomId)
  if services.serverCanSeeEvent body.origin body.roomId pdu.eventId then
    return pdu
  return { pdu with content := ← services.redactContent roomVersion pdu }

def walk (roomVersion : RoomVersionId) : Nat → List EventId → List Pdu → List EventId →
    Option (Except String (List Pdu))
  | _, [], results, _ => some (.ok results)
  | 0, _ :: _, _, _ => none
  | rounds + 1, nextEventId :: queue, results, seen =>
      if nextEventId ∈ seen then walk roomVersion rounds queue results seen
      else if body.limitOf ≤ results.length then some (.ok results)
      else
        match getPdu services nextEventId with
        | none => walk roomVersion rounds queue results seen
        | some pdu =>
            match outgoing services body roomVersion pdu with
            | .error message => some (.error message)
            | .ok pdu => walk roomVersion rounds (queue ++ pdu.prevEvents)
                (if nextEventId ∈ body.latestEvents then results
                  else results ++ [pdu]) (nextEventId :: seen)

/-- Without a value if the rounds do not suffice. -/
def getMissingEventsRoute (rounds : Nat) : Option (Except String (List Pdu)) :=
  match services.accessCheck body.origin body.roomId with
  | .error message => some (.error message)
  | .ok () =>
      if !services.serverInRoom body.roomId then
        some (.error "This server is not participating in that room.")
      else
        match services.getRoomVersion body.roomId with
        | .error message => some (.error message)
        | .ok roomVersion =>
            (walk services body roomVersion rounds body.latestEvents []
              body.earliestEvents).map (fun results => results.map List.reverse)

def PrevEvent (node target : EventId) : Prop := target ∉ body.earliestEvents ∧
    ∃ pdu, getPdu services node = some pdu ∧ target ∈ pdu.prevEvents

/-- A stored event that a latest one leads to, past the earliest ones. -/
def Missing (eventId : EventId) : Prop :=
  ∃ start ∈ body.latestEvents, start ∉ body.earliestEvents ∧
    ReflTransGen (PrevEvent services body) start eventId

/-- Every stored event that the walk can meet is of the room, and it can be
redacted if the other server cannot see it. -/
def Sendable (roomVersion : RoomVersionId) : Prop :=
  ∀ eventId pdu, Missing services body eventId →
    getPdu services eventId = some pdu →
    ∃ sent, outgoing services body roomVersion pdu = .ok sent

/-- The prev events of the stored events that were not seen. -/
def pending (seen : List EventId) : Nat :=
  load (fun pdu : Pdu => pdu.prevEvents.length)
    (services.store.filter (fun pdu => pdu.eventId ∉ seen))

/-- An event that the walk has met, or will meet in vain. -/
def Met (queue seen : List EventId) (id : EventId) : Prop :=
  id ∈ seen ∨ id ∈ queue ∨ getPdu services id = none

structure Walked (queue : List EventId) (results : List Pdu)
    (seen : List EventId) : Prop where
  earliest : ∀ id ∈ body.earliestEvents, id ∈ seen
  once : (results.map Pdu.eventId).Nodup
  few : results.length ≤ body.limitOf
  sound : ∀ pdu ∈ results, pdu.eventId ∈ seen ∧
    pdu.eventId ∉ body.latestEvents ∧ pdu.eventId ∉ body.earliestEvents ∧
      Missing services body pdu.eventId
  queued : ∀ id ∈ queue, id ∈ body.earliestEvents ∨ Missing services body id
  latest : ∀ id ∈ body.latestEvents, Met services queue seen id
  closed : ∀ node ∈ seen, ∀ target, PrevEvent services body node target →
    node ∈ body.earliestEvents ∨ Met services queue seen target
  found : ∀ id ∈ seen, id ∈ body.earliestEvents ∨ id ∈ body.latestEvents ∨
    ∃ pdu ∈ results, pdu.eventId = id

end

section

variable {services : Services} {body : Request} {pdu : Pdu} {id : EventId}
  {queue seen : List EventId} {results : List Pdu}
  {roomVersion : RoomVersionId}

theorem eventId_of_getPdu (found : getPdu services id = some pdu) :
    pdu.eventId = id := by
  simpa using find?_some found

theorem outgoing_ok {sent : Pdu}
    (result : outgoing services body roomVersion pdu = .ok sent) :
    sent.eventId = pdu.eventId ∧ sent.prevEvents = pdu.prevEvents := by
  unfold outgoing at result
  cases room : roomIdOrHash pdu with
  | error message =>
      rw [room] at result
      cases result
  | ok roomId =>
      rw [room] at result
      simp only [bind, Except.bind, pure, Except.pure, throw, throwThe,
        MonadExceptOf.throw] at result
      repeat' split at result
      all_goals cases result
      all_goals exact ⟨rfl, rfl⟩

theorem pending_cons (found : getPdu services id = some pdu)
    (unseen : id ∉ seen) :
    pending services (id :: seen) + pdu.prevEvents.length ≤
      pending services seen := by
  have isId := eventId_of_getPdu found
  have split := filter_append_perm (fun other : Pdu => other.eventId ≠ id)
    (services.store.filter (fun other => other.eventId ∉ seen))
  have member : pdu ∈ (services.store.filter (fun other =>
      other.eventId ∉ seen)).filter (fun other => !(other.eventId ≠ id)) := by
    simp [isId, unseen, List.mem_of_find?_eq_some found]
  have taken := weight_le_load (fun other : Pdu => other.prevEvents.length)
    member
  have whole := load_perm (fun other : Pdu => other.prevEvents.length) split
  rw [load_append, filter_filter] at whole
  have left : (fun other : Pdu => decide (other.eventId ≠ id) &&
      decide (other.eventId ∉ seen)) =
        fun other => decide (other.eventId ∉ id :: seen) := by
    funext other
    simp
  rw [left] at whole
  unfold pending
  omega

theorem Met.skip {other : EventId} (met : Met services (id :: queue) seen other)
    (skipped : id ∈ seen ∨ getPdu services id = none) :
    Met services queue seen other := by
  rcases met with before | waits | none
  · exact .inl before
  · rcases mem_cons.mp waits with same | waits
    · exact same ▸ skipped.imp_right .inr
    · exact .inr (.inl waits)
  · exact .inr (.inr none)

theorem Met.take {other : EventId} (met : Met services (id :: queue) seen other)
    (prevs : List EventId) :
    Met services (queue ++ prevs) (id :: seen) other := by
  rcases met with before | waits | none
  · exact .inl (mem_cons_of_mem id before)
  · rcases mem_cons.mp waits with same | waits
    · exact .inl (same ▸ mem_cons_self)
    · exact .inr (.inl (mem_append_left prevs waits))
  · exact .inr (.inr none)

theorem Walked.skip (walked : Walked services body (id :: queue) results seen)
    (skipped : id ∈ seen ∨ getPdu services id = none) :
    Walked services body queue results seen :=
  { walked with
    queued := fun other member => walked.queued other
      (mem_cons_of_mem id member)
    latest := fun other member => (walked.latest other member).skip skipped
    closed := fun node member target step =>
      (walked.closed node member target step).imp_right
        fun met => met.skip skipped }

theorem Walked.take (walked : Walked services body (id :: queue) results seen)
    (unseen : id ∉ seen) (room : results.length < body.limitOf)
    (found : getPdu services id = some pdu) {sent : Pdu}
    (isSent : sent.eventId = id) (prevs : sent.prevEvents = pdu.prevEvents) :
    Walked services body (queue ++ sent.prevEvents)
      (if id ∈ body.latestEvents then results else results ++ [sent])
      (id :: seen) := by
  have notEarliest : id ∉ body.earliestEvents :=
    fun isEarliest => unseen (walked.earliest id isEarliest)
  have missing : Missing services body id :=
    (walked.queued id mem_cons_self).resolve_left notEarliest
  have mem_results {other : Pdu} : other ∈ (if id ∈ body.latestEvents then
      results else results ++ [sent]) ↔
        other ∈ results ∨ id ∉ body.latestEvents ∧ other = sent := by
    split
    next isLatest => simp [isLatest]
    next notLatest => simp [notLatest]
  refine ⟨fun other isEarliest =>
    mem_cons_of_mem id (walked.earliest other isEarliest), ?_, ?_, ?_, ?_,
    fun other isLatest => (walked.latest other isLatest).take _, ?_, ?_⟩
  · split
    · exact walked.once
    · rw [map_append, map_singleton, isSent]
      refine List.Nodup.append walked.once (nodup_singleton id) ?_
      rw [disjoint_singleton]
      intro member
      obtain ⟨other, inside, rfl⟩ := mem_map.mp member
      exact unseen (walked.sound other inside).1
  · split
    · exact walked.few
    · rw [length_append]
      exact room
  · intro other member
    rcases mem_results.mp member with before | ⟨notLatest, rfl⟩
    · obtain ⟨isSeen, rest⟩ := walked.sound other before
      exact ⟨mem_cons_of_mem id isSeen, rest⟩
    · rw [isSent]
      exact ⟨mem_cons_self, notLatest, notEarliest, missing⟩
  · intro other member
    rcases mem_append.mp member with waits | isPrev
    · exact walked.queued other (mem_cons_of_mem id waits)
    · refine or_iff_not_imp_left.mpr fun other_ => ?_
      obtain ⟨start, isLatest, begins, path⟩ := missing
      exact ⟨start, isLatest, begins, path.tail
        ⟨other_, pdu, found, prevs ▸ isPrev⟩⟩
  · intro node member target step
    rcases mem_cons.mp member with same | before
    · obtain ⟨_, other, isOther, isPrev⟩ := step
      rw [same, found] at isOther
      rw [← Option.some.inj isOther, ← prevs] at isPrev
      exact .inr (.inr (.inl (mem_append_right _ isPrev)))
    · exact (walked.closed node before target step).imp_right
        fun met => met.take _
  · intro other member
    rcases mem_cons.mp member with same | before
    · rw [same]
      by_cases isLatest : id ∈ body.latestEvents
      · exact .inr (.inl isLatest)
      · exact .inr (.inr ⟨sent, mem_results.mpr (.inr ⟨isLatest, rfl⟩), isSent⟩)
    · refine (walked.found other before).imp_right (Or.imp_right ?_)
      exact fun ⟨pdu, inside, isId⟩ =>
        ⟨pdu, mem_results.mpr (.inl inside), isId⟩

theorem walk_spec {rounds : Nat}
    (walked : Walked services body queue results seen)
    (enough : queue.length + pending services seen ≤ rounds) :
    ∃ answer, walk services body roomVersion rounds queue results seen =
        some answer ∧
      (∀ events, answer = .ok events → ∃ queue seen,
        Walked services body queue events seen ∧
          (queue = [] ∨ body.limitOf ≤ events.length)) ∧
      (Sendable services body roomVersion → ∃ events, answer = .ok events) := by
  induction rounds generalizing queue results seen with
  | zero =>
      obtain rfl : queue = [] := eq_nil_of_length_eq_zero (by omega)
      exact ⟨.ok results, rfl, fun events same =>
        ⟨[], seen, Except.ok.inj same ▸ walked, .inl rfl⟩,
        fun _ => ⟨results, rfl⟩⟩
  | succ rounds ih =>
      cases queue with
      | nil => exact ⟨.ok results, rfl, fun events same =>
          ⟨[], seen, Except.ok.inj same ▸ walked, .inl rfl⟩,
          fun _ => ⟨results, rfl⟩⟩
      | cons id queue =>
          rw [length_cons] at enough
          rw [walk]
          split
          next isSeen => exact ih (walked.skip (.inl isSeen)) (by omega)
          next unseen =>
            split
            next full => exact ⟨.ok results, rfl, fun events same =>
              ⟨id :: queue, seen, Except.ok.inj same ▸ walked,
                .inr (Except.ok.inj same ▸ full)⟩, fun _ => ⟨results, rfl⟩⟩
            next room =>
              split
              next none =>
                exact ih (walked.skip (.inr none)) (by omega)
              next pdu found =>
                have fewer := pending_cons found unseen
                split
                next message failed =>
                  refine ⟨.error message, rfl, fun _ same => ?_,
                    fun sendable => ?_⟩
                  · cases same
                  have missing := (walked.queued id mem_cons_self).resolve_left
                    fun isEarliest => unseen (walked.earliest id isEarliest)
                  obtain ⟨sent, result⟩ := sendable id pdu missing found
                  cases failed.symm.trans result
                next sent result =>
                  obtain ⟨isId, prevs⟩ := outgoing_ok result
                  refine ih (walked.take unseen (not_le.mp room) found
                    (isId.trans (eventId_of_getPdu found)) prevs) ?_
                  rw [length_append, prevs]
                  omega

theorem walked_start : Walked services body body.latestEvents []
    body.earliestEvents where
  earliest := fun _ => id
  once := nodup_nil
  few := Nat.zero_le _
  sound := fun _ member => absurd member not_mem_nil
  queued := fun start isLatest => or_iff_not_imp_left.mpr fun begins =>
    ⟨start, isLatest, begins, .refl⟩
  latest := fun _ isLatest => .inr (.inl isLatest)
  closed := fun _ member _ _ => .inl member
  found := fun _ member => .inl member

theorem Walked.complete (walked : Walked services body [] results seen)
    (missing : Missing services body id) :
    id ∉ body.earliestEvents ∧ (getPdu services id = none ∨ id ∈ seen) := by
  have met {other : EventId} (met : Met services [] seen other) :
      getPdu services other = none ∨ other ∈ seen := by
    rcases met with before | waits | none
    · exact .inr before
    · cases waits
    · exact .inl none
  obtain ⟨start, isLatest, begins, path⟩ := missing
  induction path with
  | refl => exact ⟨begins, met (walked.latest start isLatest)⟩
  | tail path step ih =>
      obtain ⟨notEarliest, none | isSeen⟩ := ih
      · obtain ⟨_, pdu, found, _⟩ := step
        cases none.symm.trans found
      · exact ⟨step.1, met ((walked.closed _ isSeen _ step).resolve_left
          notEarliest)⟩

end

/-- The walk ends, and what it returns are missing events, each once, and all
of them if they are fewer than the limit.  It returns events to a server with
access, if the room has a version and every event can be sent. -/
theorem getMissingEvents_exact (services : Services) (body : Request) :
    ∃ least, ∀ rounds, least ≤ rounds → ∃ answer,
      getMissingEventsRoute services body rounds = some answer ∧
      (∀ events, answer = .ok events →
        (events.map Pdu.eventId).Nodup ∧ events.length ≤ body.limitOf ∧
        (∀ pdu ∈ events, pdu.eventId ∉ body.latestEvents ∧
          pdu.eventId ∉ body.earliestEvents ∧
          Missing services body pdu.eventId) ∧
        (events.length < body.limitOf → ∀ pdu ∈ services.store,
          Missing services body pdu.eventId → pdu.eventId ∉ body.latestEvents →
              pdu.eventId ∈ events.map Pdu.eventId)) ∧
      (∀ roomVersion, services.accessCheck body.origin body.roomId = .ok () →
        services.serverInRoom body.roomId = true →
        services.getRoomVersion body.roomId = .ok roomVersion →
        Sendable services body roomVersion → ∃ events, answer = .ok events) := by
  refine ⟨body.latestEvents.length + pending services body.earliestEvents,
    fun rounds enough => ?_⟩
  unfold getMissingEventsRoute
  split
  next message failed =>
    refine ⟨_, rfl, ?_, fun _ access => ?_⟩
    · intro _ same
      cases same
    · cases failed.symm.trans access
  split
  next absent =>
    refine ⟨_, rfl, ?_, fun _ _ joined => ?_⟩
    · intro _ same
      cases same
    · simp [joined] at absent
  split
  next message failed =>
    refine ⟨_, rfl, ?_, fun _ _ _ version => ?_⟩
    · intro _ same
      cases same
    · cases failed.symm.trans version
  next roomVersion version =>
    obtain ⟨answer, ends, spec, answers⟩ := walk_spec walked_start enough
    rw [ends]
    refine ⟨_, rfl, fun events same => ?_, ?_⟩
    · cases answer with
      | error message => cases same
      | ok results =>
          obtain rfl : results.reverse = events := Except.ok.inj same
          obtain ⟨queue, seen, walked, stops⟩ := spec results rfl
          rw [map_reverse, length_reverse]
          refine ⟨nodup_reverse.mpr walked.once, walked.few,
            fun pdu member => (walked.sound pdu (mem_reverse.mp
              member)).2, fun few pdu stored missing notLatest => ?_⟩
          obtain rfl := stops.resolve_right (not_le.mpr few)
          obtain ⟨notEarliest, none | isSeen⟩ := walked.complete missing
          · have isNot := find?_eq_none.mp none pdu stored
            exact absurd (decide_eq_true rfl) isNot
          · obtain ⟨sent, member, isId⟩ := ((walked.found _ isSeen).resolve_left
              notEarliest).resolve_left notLatest
            exact mem_reverse.mpr (mem_map.mpr ⟨sent, member, isId⟩)
    · intro other _ _ isVersion sendable
      cases version.symm.trans isVersion
      obtain ⟨results, rfl⟩ := answers sendable
      exact ⟨_, rfl⟩

def citing (eventId : EventId) (prevEvents : List EventId) : Pdu :=
  { Pdu.message eventId "!r:h" "@a:h" with prevEvents }

def cycleServices : Services where
  accessCheck _ _ := .ok ()
  serverInRoom _ := true
  getRoomVersion _ := .ok .v11
  redactContent _ pdu := .ok pdu.content
  serverCanSeeEvent _ _ _ := true
  store := [citing "$d" ["$c"], citing "$c" ["$b"],
    citing "$b" ["$a", "$d"], citing "$a" []]

def cycleRequest : Request where
  origin := "o"
  roomId := "!r:h"
  limit := 10
  earliestEvents := ["$a"]
  latestEvents := ["$d"]

theorem cycle_missing : ∃ rounds,
    getMissingEventsRoute cycleServices cycleRequest rounds =
      some (.ok [citing "$b" ["$a", "$d"], citing "$c" ["$b"]]) ∧
    Missing cycleServices cycleRequest "$b" := by
  obtain ⟨least, enough⟩ := getMissingEvents_exact cycleServices cycleRequest
  obtain ⟨answer, ends, exact_, _⟩ := enough (least + 6) (by omega)
  have answered : getMissingEventsRoute cycleServices cycleRequest
      (least + 6) =
    some (.ok [citing "$b" ["$a", "$d"], citing "$c" ["$b"]]) := rfl
  cases answered.symm.trans ends
  obtain ⟨_, _, missing, _⟩ := exact_ _ rfl
  exact ⟨_, answered, (missing _ mem_cons_self).2.2⟩

end ArcanaServer.Api.MissingEvents
