import ArcanaServer.Rooms.State

namespace ArcanaServer.Rooms

open Library ArcanaServer.Matrix StateCompressor Store List

structure RoomState where
  entries : CompressedState
  proper : Proper entries

inductive Request where
  | saveState (roomId : RoomId) (state : RoomState)
  | setEventState (eventId : EventId) (roomId : RoomId) (state : RoomState)
  | appendToState (newPdu : Pdu) (roomId : RoomId)
  | setRoomState (roomId : RoomId) (shortstatehash : ShortStateHash)
  | loadShortstatehashInfo (shortstatehash : ShortStateHash)
  | clearCache

inductive Response where
  | saved (result : Except Failure HashSetCompressStateEvent)
  | hash (result : Except Failure ShortStateHash)
  | stack (result : Except Failure (List ShortStateInfo))
  | done

section

variable {Digest : Type} [DecidableEq Digest]
  (calculateHash : List CompressedStateEvent → Digest)

def step (store : Store Digest) : Request → Store Digest × Response
  | .saveState roomId state =>
      let (result, store) := store.saveState calculateHash roomId state.entries
      (store, .saved result)
  | .setEventState eventId roomId state =>
      let (result, store) :=
        store.setEventState calculateHash eventId roomId state.entries
      (store, .hash result)
  | .appendToState newPdu roomId =>
      let (result, store) := store.appendToState newPdu roomId
      (store, .hash result)
  | .setRoomState roomId shortstatehash =>
      (store.setRoomState roomId shortstatehash, .done)
  | .loadShortstatehashInfo shortstatehash =>
      let (result, store) := store.loadInfo shortstatehash
      (store, .stack result)
  | .clearCache => (store.clearCache, .done)

abbrev StateEntry (Digest : Type) := Entry (Store Digest) Request Response

def appendedEvent (store : Store Digest) (newPdu : Pdu) (stateKey : StateKey) :
    CompressedStateEvent :=
  (store.withEvent newPdu.eventId).newEvent
    (store.short.getOrCreateShorteventid newPdu.eventId).1
    (newPdu.kind, stateKey)

def stateAfter (store : Store Digest) (newPdu : Pdu)
    (previous : CompressedState) : CompressedState :=
  match newPdu.stateKey with
  | some stateKey =>
      replaceEntry previous (appendedEvent store newPdu stateKey)
  | none => previous

/-- The state that one step has saved under a hash, where `saved` tells what
was saved before it. -/
def SavedBy (saved : ShortStateHash → CompressedState → Prop)
    (entry : StateEntry Digest) (hash : ShortStateHash)
    (state : CompressedState) : Prop :=
  match entry.input, entry.output with
  | .saveState _ asked, .saved (.ok answer) =>
      hash = answer.shortstatehash ∧ state = asked.entries
  | .setEventState _ _ asked, .hash (.ok answer) =>
      hash = answer ∧ state = asked.entries
  | .appendToState newPdu roomId, .hash (.ok answer) =>
      hash = answer ∧ ∃ previous,
        (match entry.before.roomidShortstatehash roomId with
          | some current => saved current previous
          | none => previous = ∅) ∧
        state = stateAfter entry.before newPdu previous
  | _, _ => False

def SavedIn : List (StateEntry Digest) → ShortStateHash → CompressedState → Prop
  | [], _, _ => False
  | entry :: earlier, hash, state =>
      SavedBy (SavedIn earlier) entry hash state ∨ SavedIn earlier hash state

def Saved (history : List (StateEntry Digest)) : ShortStateHash →
    CompressedState → Prop :=
  SavedIn history.reverse

def Returned (history : List (StateEntry Digest)) (hash : ShortStateHash) :
    Prop :=
  ∃ entry ∈ history, entry.output = .hash (.ok hash) ∨
    ∃ answer, entry.output = .saved (.ok answer) ∧ answer.shortstatehash = hash

def Recorded (history : List (StateEntry Digest)) (store : Store Digest)
    (hash : ShortStateHash) : Prop :=
  ∃ shorteventid, store.shorteventidShortstatehash shorteventid = some hash ∨
      ∃ entry ∈ history,
        entry.before.shorteventidShortstatehash shorteventid = some hash

def Asked (history : List (StateEntry Digest)) (state : CompressedState) :
    Prop :=
  ∃ entry ∈ history, ∃ asked : RoomState, asked.entries = state ∧
    ((∃ roomId, entry.input = .saveState roomId asked) ∨
      ∃ eventId roomId, entry.input = .setEventState eventId roomId asked)

def CollisionFree (history : List (StateEntry Digest)) : Prop :=
  ∀ left right, Asked history left → Asked history right →
    calculateHash left.sort = calculateHash right.sort → left = right

def Parents (store : Store Digest) (roomId : RoomId)
    (stack : List ShortStateInfo) : Prop :=
  match store.roomidShortstatehash roomId with
  | some current =>
      StackOf store.compressor.shortstatehashStatediff current stack
  | none => stack = []

/-- The step does not exhaust the counter, the arithmetic on the sizes of the
diffs does not overflow, and a room is set to a hash that was returned. -/
def StepFits (earlier : List (StateEntry Digest)) (entry : StateEntry Digest) :
    Prop :=
  let store := entry.before
  match entry.input with
  | .saveState roomId state =>
      store.short.statehashShortstatehash
          (calculateHash state.entries.sort) = none →
        store.short.counter < u64Max ∧ ∀ stack, Parents store roomId stack →
            Fits (diffTo stack state.entries) 2 stack
  | .setEventState eventId roomId state =>
      store.short.statehashShortstatehash
          (calculateHash state.entries.sort) = none →
        (store.withEvent eventId).short.counter < u64Max ∧
          ∀ stack, Parents store roomId stack →
            Fits (diffTo stack state.entries) 1000000 stack
  | .appendToState newPdu roomId =>
      ∀ stateKey, newPdu.stateKey = some stateKey →
        ∀ stack, Parents store roomId stack →
          let new := appendedEvent store newPdu stateKey
          some new ≠ replaces (keyOf new) (baseOf stack) →
            ((store.withEvent newPdu.eventId).withKey
                (newPdu.kind, stateKey)).short.counter < u64Max ∧
              Fits (replaceDiff (baseOf stack) new) 2 stack
  | .setRoomState _ shortstatehash => Returned earlier shortstatehash
  | .loadShortstatehashInfo _ => True
  | .clearCache => True

def Before (history : List (StateEntry Digest)) (store : Store Digest)
    (roomId : RoomId) (previous : CompressedState) : Prop :=
  match store.roomidShortstatehash roomId with
  | some current => Saved history current previous
  | none => previous = ∅

section

omit [DecidableEq Digest]

variable {history : List (StateEntry Digest)} {state : CompressedState}

theorem saved_snoc {entry : StateEntry Digest} {hash : ShortStateHash} :
    Saved (history ++ [entry]) hash state ↔
      SavedBy (Saved history) entry hash state ∨ Saved history hash state := by
  unfold Saved
  rw [reverse_append]
  rfl

theorem Saved.snoc {hash : ShortStateHash} (saved : Saved history hash state)
    (entry : StateEntry Digest) : Saved (history ++ [entry]) hash state :=
  saved_snoc.mpr (.inr saved)

theorem Asked.append (asked : Asked history state)
    (later : List (StateEntry Digest)) : Asked (history ++ later) state := by
  obtain ⟨entry, member, rest⟩ := asked
  exact ⟨entry, mem_append_left _ member, rest⟩

end

structure HistoryInv (history : List (StateEntry Digest))
    (store : Store Digest) : Prop where
  sound : store.Sound
  saved : ∀ hash state, Saved history hash state →
    Proper state ∧ store.Holds hash state
  rows : ∀ digest hash, store.short.statehashShortstatehash digest = some hash →
      ∃ state, Asked history state ∧ calculateHash state.sort = digest ∧
        Saved history hash state
  rooms : ∀ roomId hash, store.roomidShortstatehash roomId = some hash →
    ∃ state, Saved history hash state
  recorded : ∀ shorteventid hash,
    store.shorteventidShortstatehash shorteventid = some hash →
      ∃ state, Saved history hash state
  returned : ∀ hash, Returned history hash → ∃ state, Saved history hash state

namespace HistoryInv

variable {calculateHash} {history : List (StateEntry Digest)}
  {store after : Store Digest} {entry : StateEntry Digest}

section

omit [DecidableEq Digest]

/-- What a step has to establish, beyond keeping what is stored. -/
theorem next (inv : HistoryInv calculateHash history store)
    (advances : Store.Advances store after)
    (savedBy : ∀ hash state, SavedBy (Saved history) entry hash state →
      Proper state ∧ after.Holds hash state)
    (rows : ∀ digest hash,
      after.short.statehashShortstatehash digest = some hash →
        store.short.statehashShortstatehash digest = some hash ∨
          ∃ state, Asked (history ++ [entry]) state ∧
            calculateHash state.sort = digest ∧
            SavedBy (Saved history) entry hash state)
    (recorded : ∀ shorteventid hash,
      after.shorteventidShortstatehash shorteventid = some hash →
        store.shorteventidShortstatehash shorteventid = some hash ∨
          ∃ state, Saved (history ++ [entry]) hash state)
    (returned : ∀ hash, Returned [entry] hash →
      ∃ state, Saved (history ++ [entry]) hash state) :
    HistoryInv calculateHash (history ++ [entry]) after := by
  have keep : ∀ hash, (∃ state, Saved history hash state) →
      ∃ state, Saved (history ++ [entry]) hash state := by
    intro hash known
    obtain ⟨state, saved⟩ := known
    exact ⟨state, saved.snoc entry⟩
  refine ⟨advances.sound, ?_, ?_, ?_, ?_, ?_⟩
  · intro hash state saved
    rcases saved_snoc.mp saved with new | old
    · exact savedBy hash state new
    · obtain ⟨proper, holds⟩ := inv.saved hash state old
      exact ⟨proper, holds.mono advances⟩
  · intro digest hash found
    rcases rows digest hash found with old | new
    · obtain ⟨state, asked, same, saved⟩ := inv.rows digest hash old
      exact ⟨state, asked.append _, same, saved.snoc entry⟩
    · obtain ⟨state, asked, same, saved⟩ := new
      exact ⟨state, asked, same, saved_snoc.mpr (.inl saved)⟩
  · intro roomId hash found
    rw [advances.rooms] at found
    exact keep hash (inv.rooms roomId hash found)
  · intro shorteventid hash found
    rcases recorded shorteventid hash found with old | new
    · exact keep hash (inv.recorded shorteventid hash old)
    · exact new
  · intro hash known
    obtain ⟨source, member, output⟩ := known
    rcases mem_append.mp member with old | new
    · exact keep hash (inv.returned hash ⟨source, old, output⟩)
    · exact returned hash ⟨source, new, output⟩

theorem parents (inv : HistoryInv calculateHash history store)
    (roomId : RoomId) :
    ∃ stack, Parents store roomId stack ∧
      store.ParentsOf (store.roomidShortstatehash roomId) stack ∧
      Proper (baseOf stack) ∧
      Before history store roomId (baseOf stack) := by
  unfold Before
  cases current : store.roomidShortstatehash roomId with
  | none =>
      refine ⟨[], ?_, rfl, proper_empty, rfl⟩
      simp only [Parents, current]
  | some hash =>
      obtain ⟨state, saved⟩ := inv.rooms roomId hash current
      obtain ⟨proper, stack, stands⟩ := inv.saved hash state saved
      refine ⟨stack, ?_, ⟨stands.stackOf, stands.layered⟩, ?_, ?_⟩
      · simp only [Parents, current]
        exact stands.stackOf
      · rw [stands.ends]
        exact proper
      · rw [stands.ends]
        exact saved

theorem known (inv : HistoryInv calculateHash history store)
    (collisionFree : CollisionFree calculateHash (history ++ [entry]))
    {state : CompressedState} (asked : Asked (history ++ [entry]) state)
    {hash : ShortStateHash} (found : store.short.statehashShortstatehash
      (calculateHash state.sort) = some hash) :
    Saved history hash state := by
  obtain ⟨earlier, earlierAsked, same, saved⟩ := inv.rows _ hash found
  have equal := collisionFree earlier state (earlierAsked.append _) asked same
  rw [← equal]
  exact saved

end

/-- The step has returned `hash` and saved `state` under it. -/
structure Saves (history : List (StateEntry Digest))
    (entry : StateEntry Digest) (hash : ShortStateHash)
    (state : CompressedState) : Prop where
  saves : SavedBy (Saved history) entry hash state
  only : ∀ hash' state', SavedBy (Saved history) entry hash' state' →
    hash' = hash ∧ state' = state
  returns : ∀ hash', Returned [entry] hash' → hash' = hash

variable {hash : ShortStateHash}

omit [DecidableEq Digest] in
theorem nextSaving (inv : HistoryInv calculateHash history store)
    {state : CompressedState} (saves : Saves history entry hash state)
    (advances : Store.Advances store after) (proper : Proper state)
    (holds : after.Holds hash state) (rows : ∀ digest hash',
      after.short.statehashShortstatehash digest = some hash' →
        store.short.statehashShortstatehash digest = some hash' ∨
          hash' = hash ∧ Asked (history ++ [entry]) state ∧
            calculateHash state.sort = digest) (recorded : ∀ shorteventid hash',
      after.shorteventidShortstatehash shorteventid = some hash' →
        store.shorteventidShortstatehash shorteventid = some hash' ∨
          hash' = hash ∨ ∃ earlier, Saved history hash' earlier) :
    HistoryInv calculateHash (history ++ [entry]) after := by
  have new : Saved (history ++ [entry]) hash state :=
    saved_snoc.mpr (.inl saves.saves)
  apply inv.next advances
  · intro hash' state' savedBy
    obtain ⟨sameHash, sameState⟩ := saves.only hash' state' savedBy
    rw [sameHash, sameState]
    exact ⟨proper, holds⟩
  · intro digest hash' row
    rcases rows digest hash' row with old | fresh
    · exact .inl old
    · obtain ⟨sameHash, asked, same⟩ := fresh
      rw [sameHash]
      exact .inr ⟨state, asked, same, saves.saves⟩
  · intro shorteventid hash' row
    rcases recorded shorteventid hash' row with old | fresh
    · exact .inl old
    · right
      rcases fresh with sameHash | earlier
      · exact ⟨state, sameHash ▸ new⟩
      · obtain ⟨state', saved⟩ := earlier
        exact ⟨state', saved.snoc entry⟩
  · intro hash' known
    rw [saves.returns hash' known]
    exact ⟨state, new⟩

theorem returned_hash {request : Request}
    (output : step calculateHash store request = (after, .hash (.ok hash))) :
    ∀ hash', Returned [entryOf (step calculateHash) store request] hash' →
      hash' = hash := by
  intro hash' known
  simp only [Returned, mem_singleton, exists_eq_left, entryOf, output,
    reduceCtorEq, false_and, exists_false, or_false, Response.hash.injEq,
    Except.ok.injEq] at known
  exact known.symm

variable {roomId : RoomId} {state : RoomState}

theorem step_saveState {result : Except Failure HashSetCompressStateEvent}
    (ends : store.saveState calculateHash roomId state.entries =
      (result, after)) :
    step calculateHash store (.saveState roomId state) =
      (after, .saved result) := by
  simp only [step, ends]

theorem saves_saveState {answer : HashSetCompressStateEvent}
    (output : step calculateHash store (.saveState roomId state) =
      (after, .saved (.ok answer))) :
    Saves history (entryOf (step calculateHash) store (.saveState roomId state))
      answer.shortstatehash state.entries := by
  refine ⟨?_, ?_, ?_⟩
  · simp only [SavedBy, entryOf, output, and_self]
  · intro hash' state' savedBy
    simpa only [SavedBy, entryOf, output] using savedBy
  · intro hash' known
    simp only [Returned, mem_singleton, exists_eq_left, entryOf, output,
      reduceCtorEq, false_or, Response.saved.injEq, Except.ok.injEq] at known
    obtain ⟨_, rfl, same⟩ := known
    exact same.symm

theorem saveState (inv : HistoryInv calculateHash history store)
    (roomId : RoomId) (state : RoomState)
    (collisionFree : CollisionFree calculateHash (history ++
      [entryOf (step calculateHash) store (.saveState roomId state)]))
    (fits : StepFits calculateHash history
      (entryOf (step calculateHash) store (.saveState roomId state))) :
    HistoryInv calculateHash (history ++
        [entryOf (step calculateHash) store (.saveState roomId state)])
      (step calculateHash store (.saveState roomId state)).1 := by
  obtain ⟨stack, isParents, parentsOf, _⟩ := inv.parents roomId
  have asked : Asked (history ++
      [entryOf (step calculateHash) store (.saveState roomId state)])
        state.entries :=
    ⟨_, mem_append_right _ (mem_singleton.mpr rfl), state, rfl,
      .inl ⟨roomId, rfl⟩⟩
  cases found : store.short.statehashShortstatehash
      (calculateHash state.entries.sort) with
  | none =>
      obtain ⟨counter, fitsStack⟩ := fits found
      obtain ⟨answer, compressor, result, isHash, advances, holds⟩ :=
        saveState_new calculateHash inv.sound found counter parentsOf
          state.proper.keyed (fitsStack stack isParents)
      have saves : Saves history _ _ _ :=
        saves_saveState (step_saveState result)
      rw [isHash] at saves
      rw [step_saveState result]
      apply inv.nextSaving saves advances state.proper holds
      · intro digest hash' row
        rcases update_eq_some row with old | new
        · exact .inl old
        · exact .inr ⟨new.2, asked, new.1.symm⟩
      · intro shorteventid hash' row
        exact .inl row
  | some hash =>
      have saved := inv.known collisionFree asked found
      obtain ⟨answer, compressor, result, isHash, advances, _⟩ :=
        saveState_known calculateHash inv.sound found parentsOf
      have saves : Saves history _ _ _ :=
        saves_saveState (step_saveState result)
      rw [isHash] at saves
      rw [step_saveState result]
      apply inv.nextSaving saves advances state.proper
        ((inv.saved hash _ saved).2.mono advances)
      · intro digest hash' row
        exact .inl row
      · intro shorteventid hash' row
        exact .inl row

theorem step_setEventState {eventId : EventId}
    {result : Except Failure ShortStateHash}
    (ends : store.setEventState calculateHash eventId roomId state.entries =
      (result, after)) :
    step calculateHash store (.setEventState eventId roomId state) =
      (after, .hash result) := by
  simp only [step, ends]

theorem saves_setEventState {eventId : EventId}
    (output : step calculateHash store (.setEventState eventId roomId state) =
      (after, .hash (.ok hash))) :
    Saves history (entryOf (step calculateHash) store
        (.setEventState eventId roomId state)) hash state.entries := by
  refine ⟨?_, ?_, ?_⟩
  · simp only [SavedBy, entryOf, output, and_self]
  · intro hash' state' savedBy
    simpa only [SavedBy, entryOf, output] using savedBy
  · exact returned_hash output

theorem setEventState (inv : HistoryInv calculateHash history store)
    (eventId : EventId) (roomId : RoomId) (state : RoomState)
    (collisionFree : CollisionFree calculateHash (history ++
      [entryOf (step calculateHash) store
        (.setEventState eventId roomId state)]))
    (fits : StepFits calculateHash history (entryOf (step calculateHash) store
        (.setEventState eventId roomId state))) :
    HistoryInv calculateHash (history ++ [entryOf (step calculateHash) store
          (.setEventState eventId roomId state)])
      (step calculateHash store (.setEventState eventId roomId state)).1 := by
  obtain ⟨stack, isParents, parentsOf, _⟩ := inv.parents roomId
  have asked : Asked (history ++ [entryOf (step calculateHash) store
        (.setEventState eventId roomId state)]) state.entries :=
    ⟨_, mem_append_right _ (mem_singleton.mpr rfl), state, rfl,
      .inr ⟨eventId, roomId, rfl⟩⟩
  cases found : store.short.statehashShortstatehash
      (calculateHash state.entries.sort) with
  | none =>
      obtain ⟨counter, fitsStack⟩ := fits found
      obtain ⟨hash, compressor, isHash, result, advances, holds⟩ :=
        setEventState_new calculateHash eventId roomId inv.sound found
          counter parentsOf state.proper.keyed (fitsStack stack isParents)
      have saves : Saves history _ _ _ :=
        saves_setEventState (step_setEventState result)
      rw [step_setEventState result]
      apply inv.nextSaving saves (advances.setShortstatehash _ _)
        state.proper holds
      · intro digest hash' row
        rcases update_eq_some row with old | new
        · left
          rw [← old]
          exact (congrFun
            (store.short.getOrCreateShorteventid_extends eventId).rows _).symm
        · exact .inr ⟨new.2.trans isHash.symm, asked, new.1.symm⟩
      · intro shorteventid hash' row
        rcases setShortstatehash_eq_some row with old | new
        · exact .inl old
        · exact .inr (.inl new)
  | some hash =>
      have saved := inv.known collisionFree asked found
      obtain ⟨result, advances⟩ :=
        setEventState_known calculateHash eventId roomId inv.sound found
      have saves : Saves history _ _ _ :=
        saves_setEventState (step_setEventState result)
      rw [step_setEventState result]
      apply inv.nextSaving saves (advances.setShortstatehash _ _) state.proper
        ((inv.saved hash _ saved).2.mono (advances.setShortstatehash _ _))
      · intro digest hash' row
        left
        rw [← row]
        exact (congrFun
          (store.short.getOrCreateShorteventid_extends eventId).rows _).symm
      · intro shorteventid hash' row
        rcases setShortstatehash_eq_some row with old | new
        · exact .inl old
        · exact .inr (.inl new)

theorem saves_appendToState (inv : HistoryInv calculateHash history store)
    {newPdu : Pdu} {previous : CompressedState}
    (before : Before history store roomId previous)
    (output : step calculateHash store (.appendToState newPdu roomId) =
      (after, .hash (.ok hash))) :
    Saves history
      (entryOf (step calculateHash) store (.appendToState newPdu roomId))
      hash (stateAfter store newPdu previous) := by
  refine ⟨?_, ?_, returned_hash output⟩
  · simp only [SavedBy, entryOf, output]
    exact ⟨trivial, previous, before, rfl⟩
  · intro hash' state' savedBy
    simp only [SavedBy, entryOf, output] at savedBy
    obtain ⟨sameHash, previous', before', isAfter⟩ := savedBy
    have same : previous' = previous := by
      unfold Before at before
      cases current : store.roomidShortstatehash roomId with
      | none =>
          simp only [current] at before before'
          rw [before, before']
      | some hash =>
          simp only [current] at before before'
          exact (inv.saved hash previous' before').2.unique
            (inv.saved hash previous before).2
    rw [same] at isAfter
    exact ⟨sameHash, isAfter⟩

omit [DecidableEq Digest] in
theorem rows_withEvent (store : Store Digest) (eventId : EventId)
    (shorteventid : ShortEventId) (previous : Option ShortStateHash) :
    ((store.withEvent eventId).recordPrevious shorteventid
      previous).short.statehashShortstatehash =
        store.short.statehashShortstatehash := by
  rw [recordPrevious_short]
  exact (store.short.getOrCreateShorteventid_extends eventId).rows

section

variable (inv : HistoryInv calculateHash history store)
include inv

omit [DecidableEq Digest] in
theorem recorded_withEvent {eventId : EventId} {roomId : RoomId}
    {shorteventid other : ShortEventId} {hash : ShortStateHash}
    (row : ((store.withEvent eventId).recordPrevious shorteventid
      (store.roomidShortstatehash roomId)).shorteventidShortstatehash other =
        some hash) :
    store.shorteventidShortstatehash other = some hash ∨
      ∃ earlier, Saved history hash earlier := by
  rcases recordPrevious_eq_some row with old | isPrevious
  · exact .inl old
  · exact .inr (inv.rooms roomId hash isPrevious)

theorem appendMessage (newPdu : Pdu) (roomId : RoomId)
    (isMessage : newPdu.stateKey = none) :
    HistoryInv calculateHash (history ++
        [entryOf (step calculateHash) store (.appendToState newPdu roomId)])
      (step calculateHash store (.appendToState newPdu roomId)).1 := by
  obtain ⟨stack, _, _, proper, before⟩ := inv.parents roomId
  have advances := (inv.sound.withEvent newPdu.eventId).recordPrevious
    (store.short.getOrCreateShorteventid newPdu.eventId).1
    (store.roomidShortstatehash roomId)
  cases current : store.roomidShortstatehash roomId with
  | none =>
      have output : step calculateHash store (.appendToState newPdu roomId) =
          (store.withEvent newPdu.eventId, .hash (.error
            (.panic "first event in room must be a state event"))) := by
        simp only [step, Store.appendToState, isMessage, current]
        rfl
      rw [current] at advances
      rw [output]
      apply inv.next advances
      · intro hash state savedBy
        simp only [SavedBy, entryOf, output] at savedBy
      · intro digest hash row
        left
        rw [← row]
        exact (congrFun (rows_withEvent store newPdu.eventId 0 none) _).symm
      · intro shorteventid hash row
        exact .inl row
      · intro hash known
        simp [Returned, entryOf, output] at known
  | some previous =>
      have output : step calculateHash store (.appendToState newPdu roomId) =
          ((store.withEvent newPdu.eventId).recordPrevious
            (store.short.getOrCreateShorteventid newPdu.eventId).1
            (store.roomidShortstatehash roomId), .hash (.ok previous)) := by
        simp only [step, Store.appendToState, isMessage, current]
        rfl
      have saves := saves_appendToState inv before output
      have isAfter : stateAfter store newPdu (baseOf stack) = baseOf stack := by
        simp only [stateAfter, isMessage]
      rw [isAfter] at saves
      simp only [Before, current] at before
      rw [output]
      apply inv.nextSaving saves advances proper
        ((inv.saved previous _ before).2.mono advances)
      · intro digest hash row
        left
        rw [← row, rows_withEvent]
      · intro shorteventid hash row
        rcases inv.recorded_withEvent row with old | earlier
        · exact .inl old
        · exact .inr (.inr earlier)

theorem appendState (newPdu : Pdu) (roomId : RoomId) {stateKey : StateKey}
    (isState : newPdu.stateKey = some stateKey)
    (fits : StepFits calculateHash history
      (entryOf (step calculateHash) store (.appendToState newPdu roomId))) :
    HistoryInv calculateHash (history ++
        [entryOf (step calculateHash) store (.appendToState newPdu roomId)])
      (step calculateHash store (.appendToState newPdu roomId)).1 := by
  obtain ⟨stack, isParents, parentsOf, proper, before⟩ := inv.parents roomId
  have stepFits := fits stateKey isState stack isParents
  have advances := (inv.sound.withEvent newPdu.eventId).recordPrevious
    (store.short.getOrCreateShorteventid newPdu.eventId).1
    (store.roomidShortstatehash roomId)
  generalize drawn : (store.withEvent newPdu.eventId).recordPrevious
    (store.short.getOrCreateShorteventid newPdu.eventId).1
    (store.roomidShortstatehash roomId) = recorded at advances
  have sameShort : recorded.short = (store.withEvent newPdu.eventId).short := by
    rw [← drawn, recordPrevious_short]
  have isNew : recorded.newEvent
      (store.short.getOrCreateShorteventid newPdu.eventId).1
      (newPdu.kind, stateKey) = appendedEvent store newPdu stateKey := by
    simp only [newEvent, sameShort, appendedEvent]
  have kept : recorded.ParentsOf (store.roomidShortstatehash roomId) stack := by
    have sameTable : recorded.table = store.table := by
      rw [← drawn]
      simp only [Store.table, recordPrevious_compressor]
      rfl
    unfold Store.ParentsOf at parentsOf ⊢
    rw [sameTable]
    exact parentsOf
  have isAfter : stateAfter store newPdu (baseOf stack) =
      replaceEntry (baseOf stack) (appendedEvent store newPdu stateKey) := by
    simp only [stateAfter, isState]
  have output : ∀ {result : Except Failure ShortStateHash}
      {after : Store Digest},
      recorded.appendStateEvent (store.roomidShortstatehash roomId)
          (store.short.getOrCreateShorteventid newPdu.eventId).1
          (newPdu.kind, stateKey) = (result, after) →
        step calculateHash store (.appendToState newPdu roomId) =
          (after, .hash result) := by
    intro result after appended
    rw [← drawn] at appended
    simp only [step, Store.appendToState, isState]
    exact congrArg (fun ended => (ended.2, Response.hash ended.1)) appended
  have rowsKept : recorded.short.statehashShortstatehash =
      store.short.statehashShortstatehash := by
    rw [← drawn]
    exact rows_withEvent store newPdu.eventId _ _
  have recordedKept : ∀ shorteventid hash,
      recorded.shorteventidShortstatehash shorteventid = some hash →
        store.shorteventidShortstatehash shorteventid = some hash ∨
          ∃ earlier, Saved history hash earlier := by
    intro shorteventid hash row
    rw [← drawn] at row
    exact inv.recorded_withEvent row
  cases Decidable.em (some (appendedEvent store newPdu stateKey) =
      replaces (keyOf (appendedEvent store newPdu stateKey))
        (baseOf stack)) with
  | inl same =>
      -- The event is already in the state, so the hash stays.
      cases current : store.roomidShortstatehash roomId with
      | none =>
          simp only [Before, current] at before
          rw [before] at same
          exact absurd (replaces_eq_some same.symm).1 (Finset.notMem_empty _)
      | some previous =>
          rw [current] at kept
          obtain ⟨compressor, appended, later⟩ :=
            appendStateEvent_same advances.sound kept
              (by rw [isNew]; exact same)
          rw [← current] at appended
          have saves := saves_appendToState inv before (output appended)
          rw [isAfter, proper.replaceEntry_eq same.symm] at saves
          simp only [Before, current] at before
          rw [output appended]
          apply inv.nextSaving saves (advances.trans later) proper
            ((inv.saved previous _ before).2.mono (advances.trans later))
          · intro digest hash row
            left
            rw [← row, ← rowsKept]
            exact (congrFun (recorded.short.getOrCreateShortstatekey_extends
              _).rows _).symm
          · intro shorteventid hash row
            rcases recordedKept shorteventid hash row with old | earlier
            · exact .inl old
            · exact .inr (.inr earlier)
  | inr different =>
      obtain ⟨counter, diffFits⟩ := stepFits different
      obtain ⟨hash, after, appended, later, holds, sameRecorded, sameRows⟩ :=
        appendStateEvent_new advances.sound kept proper
          (by rw [isNew]; exact different)
          (by
            simp only [Store.withKey, sameShort]
            exact counter)
          (by rw [isNew]; exact diffFits)
      have saves := saves_appendToState inv before (output appended)
      rw [isAfter] at saves
      rw [isNew] at holds
      have nonzero : keyOf (appendedEvent store newPdu stateKey) ≠ 0 := by
        rw [← isNew]
        exact Nat.ne_of_gt
          (Short.getOrCreateShortstatekey_positive advances.sound.positive _)
      rw [output appended]
      apply inv.nextSaving saves (advances.trans later)
        (proper.replaceEntry nonzero) holds
      · intro digest hash row
        left
        rw [← row, sameRows, rowsKept]
      · intro shorteventid hash row
        rw [sameRecorded] at row
        rcases recordedKept shorteventid hash row with old | earlier
        · exact .inl old
        · exact .inr (.inr earlier)

theorem setRoomState (roomId : RoomId) (hash : ShortStateHash)
    (returned : Returned history hash) :
    HistoryInv calculateHash (history ++
        [entryOf (step calculateHash) store (.setRoomState roomId hash)])
      (store.setRoomState roomId hash) := by
  have nothing : ∀ hash' state', ¬ SavedBy (Saved history)
      (entryOf (step calculateHash) store (.setRoomState roomId hash))
        hash' state' := by
    intro hash' state' savedBy
    simp only [SavedBy, entryOf] at savedBy
  have kept : HistoryInv calculateHash (history ++
      [entryOf (step calculateHash) store (.setRoomState roomId hash)])
        store := by
    apply inv.next ⟨inv.sound, fun _ _ found => found, rfl⟩
    · intro hash' state' savedBy
      exact absurd savedBy (nothing hash' state')
    · intro digest hash' row
      exact .inl row
    · intro shorteventid hash' row
      exact .inl row
    · intro hash' known
      simp [Returned, entryOf, step] at known
  refine ⟨⟨kept.sound.cache, kept.sound.bounded, kept.sound.frames,
    kept.sound.positive⟩, kept.saved, kept.rows, ?_, kept.recorded,
    kept.returned⟩
  intro other hash' row
  rcases update_eq_some row with old | new
  · exact kept.rooms other hash' old
  · obtain ⟨state, saved⟩ := inv.returned hash returned
    rw [new.2]
    exact ⟨state, saved.snoc _⟩

theorem cacheOnly {request : Request}
    {cache : LruCache ShortStateHash (List ShortStateInfo)}
    {response : Response} (output : step calculateHash store request =
      ({ store with compressor :=
        { store.compressor with stateinfoCache := cache } }, response))
    (quiet : (∃ result, response = .stack result) ∨ response = .done)
    (valid : CacheValid
      { store.compressor with stateinfoCache := cache }) :
    HistoryInv calculateHash
      (history ++ [entryOf (step calculateHash) store request])
      (step calculateHash store request).1 := by
  have advances : Store.Advances store { store with compressor :=
      { store.compressor with stateinfoCache := cache } } :=
    ⟨⟨valid, inv.sound.bounded, inv.sound.frames, inv.sound.positive⟩,
      fun _ _ found => found, rfl⟩
  rw [output]
  apply inv.next advances
  · intro hash state savedBy
    rcases quiet with isStack | isDone
    · obtain ⟨result, rfl⟩ := isStack
      cases request <;> simp only [SavedBy, entryOf, output] at savedBy
    · subst isDone
      cases request <;> simp only [SavedBy, entryOf, output] at savedBy
  · intro digest hash row
    exact .inl row
  · intro shorteventid hash row
    exact .inl row
  · intro hash known
    rcases quiet with isStack | isDone
    · obtain ⟨result, rfl⟩ := isStack
      simp [Returned, entryOf, output] at known
    · subst isDone
      simp [Returned, entryOf, output] at known

theorem load (hash : ShortStateHash) : HistoryInv calculateHash (history ++
        [entryOf (step calculateHash) store (.loadShortstatehashInfo hash)])
      (step calculateHash store (.loadShortstatehashInfo hash)).1 := by
  cases stored : store.compressor.shortstatehashStatediff hash with
  | some value =>
      obtain ⟨stack, stackOf⟩ := inv.sound.frames hash (by
        simp [Store.table, stored])
      obtain ⟨cache, loaded, valid⟩ := loadShortstatehashInfo_spec
        store.compressor inv.sound.cache stackOf
      refine inv.cacheOnly ?_ (.inl ⟨.ok stack, rfl⟩) valid
      simp only [step, Store.loadInfo, loaded]
  | none =>
      have failed := loadInfo_missing inv.sound stored
      refine inv.cacheOnly ?_ (.inl ⟨.error (.missingStateDiff hash), rfl⟩)
        inv.sound.cache
      simp only [step, Store.loadInfo, failed]

theorem step (request : Request)
    (collisionFree : CollisionFree calculateHash (history ++
      [entryOf (Rooms.step calculateHash) store request]))
    (fits : StepFits calculateHash history
      (entryOf (Rooms.step calculateHash) store request)) :
    HistoryInv calculateHash
      (history ++ [entryOf (Rooms.step calculateHash) store request])
      (Rooms.step calculateHash store request).1 := by
  cases request with
  | saveState roomId state =>
      exact inv.saveState roomId state collisionFree fits
  | setEventState eventId roomId state =>
      exact inv.setEventState eventId roomId state collisionFree fits
  | appendToState newPdu roomId =>
      cases stateKey : newPdu.stateKey with
      | none => exact inv.appendMessage newPdu roomId stateKey
      | some key => exact inv.appendState newPdu roomId stateKey fits
  | setRoomState roomId hash => exact inv.setRoomState roomId hash fits
  | loadShortstatehashInfo hash => exact inv.load hash
  | clearCache =>
      apply inv.cacheOnly rfl (.inr rfl)
      intro entry member
      cases member

end

end HistoryInv

omit [DecidableEq Digest] in
theorem historyInv_empty (cacheCapacity : Nat) :
    HistoryInv calculateHash [] (Store.empty cacheCapacity) := by
  have nothing : ∀ hash state,
      ¬ Saved ([] : List (StateEntry Digest)) hash state :=
    fun _ _ saved => saved
  refine ⟨Store.sound_empty cacheCapacity, ?_, ?_, ?_, ?_, ?_⟩
  · intro hash state saved
    exact absurd saved (nothing hash state)
  · intro digest hash found
    cases found
  · intro roomId hash found
    cases found
  · intro shorteventid hash found
    cases found
  · intro hash returned
    obtain ⟨entry, member, _⟩ := returned
    cases member

variable {history : List (StateEntry Digest)}

omit [DecidableEq Digest] in
theorem CollisionFree.initial {later : List (StateEntry Digest)}
    (collisionFree : CollisionFree calculateHash (history ++ later)) :
    CollisionFree calculateHash history := by
  intro left right leftAsked rightAsked
  exact collisionFree left right (leftAsked.append later)
    (rightAsked.append later)

/-- Every run whose steps fit keeps the invariant. -/
theorem historyInv {cacheCapacity : Nat} {store : Store Digest}
    (reaches : Reaches (step calculateHash) (Store.empty cacheCapacity)
      history store) (fits : Always (StepFits calculateHash) history)
    (collisionFree : CollisionFree calculateHash history) :
    HistoryInv calculateHash history store := by
  have held := reaches.invariant
    (fun history store => CollisionFree calculateHash history →
      HistoryInv calculateHash history store)
    (fun _ => historyInv_empty calculateHash cacheCapacity)
    (fun history store request inv fits collisionFree =>
      (inv (CollisionFree.initial calculateHash collisionFree)).step request
        collisionFree fits)
    fits
  exact held collisionFree

omit [DecidableEq Digest] in
theorem Saved.append {later : List (StateEntry Digest)} {hash : ShortStateHash}
    {state : CompressedState} (saved : Saved history hash state) :
    Saved (history ++ later) hash state := by
  induction later using reverseRecOn with
  | nil => simpa using saved
  | append_singleton later entry ih =>
      rw [← append_assoc]
      exact ih.snoc entry

/-- In a run whose steps fit, every hash that was returned or recorded stands
for a state that was saved, and loading the hash gives that state as the top of
a sound stack of layers. -/
theorem load_saved {cacheCapacity : Nat} {history : List (StateEntry Digest)}
    {store : Store Digest}
    (reaches : Reaches (step calculateHash) (Store.empty cacheCapacity)
      history store)
    (fits : Always (StepFits calculateHash) history)
    (collisionFree : CollisionFree calculateHash history) :
    (∀ hash, Returned history hash ∨ Recorded history store hash →
      ∃ state, Saved history hash state) ∧
    ∀ hash state, Saved history hash state → ∃ top below after,
        store.loadInfo hash = (.ok (top :: below), after) ∧
          top.shortstatehash = hash ∧ top.fullState = state ∧
          WellLayered (top :: below) := by
  have inv := historyInv calculateHash reaches fits collisionFree
  constructor
  · intro hash mentioned
    rcases mentioned with returned | recorded
    · exact inv.returned hash returned
    · obtain ⟨shorteventid, recorded⟩ := recorded
      rcases recorded with now | past
      · exact inv.recorded shorteventid hash now
      · obtain ⟨entry, member, found⟩ := past
        obtain ⟨earlier, later, split⟩ := append_of_mem member
        obtain ⟨reachesEarlier, _⟩ := reaches.entry split
        rw [split] at fits collisionFree
        have earlierInv := historyInv calculateHash reachesEarlier fits.initial
          (CollisionFree.initial calculateHash collisionFree)
        obtain ⟨state, saved⟩ := earlierInv.recorded shorteventid hash found
        rw [split]
        exact ⟨state, saved.append⟩
  · intro hash state saved
    obtain ⟨_, stack, stands⟩ := inv.saved hash state saved
    obtain ⟨cache, loaded, _⟩ := loadShortstatehashInfo_spec
      store.compressor inv.sound.cache stands.stackOf
    obtain ⟨top, below, shape, isHash⟩ := stands.stackOf.head
    subst shape
    refine ⟨top, below, { store with compressor :=
      { store.compressor with stateinfoCache := cache } }, ?_, isHash,
      stands.ends, stands.layered.wellLayered stands.bounded⟩
    simp only [Store.loadInfo, loaded]

end

/-! Two runs: one that stays in the bounds, and one in which a diff of more than
2^32 entries makes the arithmetic overflow after the state hash was drawn. -/

def createState : RoomState where
  entries := {compressStateEvent 1 2}
  proper := by
    constructor
    · intro left leftMember right rightMember _
      rw [Finset.mem_singleton.mp leftMember,
        Finset.mem_singleton.mp rightMember]
    · intro event member
      rw [Finset.mem_singleton.mp member]
      decide

def manyEvent : Nat ↪ CompressedStateEvent where
  toFun := fun index => compressStateEvent (index + 2) (index + 3)
  inj' := by
    intro left right same
    have keys := congrArg keyOf same
    exact Nat.add_right_cancel keys

def manyState (count : Nat) : RoomState where
  entries := (Finset.range count).map manyEvent
  proper := by
    constructor
    · intro left leftMember right rightMember same
      obtain ⟨leftIndex, _, rfl⟩ := Finset.mem_map.mp leftMember
      obtain ⟨rightIndex, _, rfl⟩ := Finset.mem_map.mp rightMember
      exact congrArg manyEvent (Nat.add_right_cancel same)
    · intro event member
      obtain ⟨index, _, rfl⟩ := Finset.mem_map.mp member
      exact Nat.succ_ne_zero (index + 1)

section

variable (count : Nat)

theorem createState_disjoint (event : CompressedStateEvent)
    (member : event ∈ (manyState count).entries) :
    event ∉ createState.entries := by
  obtain ⟨index, _, rfl⟩ := Finset.mem_map.mp member
  intro inside
  have same := congrArg keyOf (Finset.mem_singleton.mp inside)
  exact absurd (Nat.add_right_cancel (m := 1) same) (Nat.succ_ne_zero index)

/-- Distinct lists of events have distinct hashes here. -/
def listHash : List CompressedStateEvent → List CompressedStateEvent := id

def createDiff : StateDiff where
  added := createState.entries
  removed := ∅
  parent := none

def createTable : StateCompressor :=
  (StateCompressor.empty 16).saveStatediff 1 createDiff

def createFrame : ShortStateInfo where
  added := createState.entries
  removed := ∅
  shortstatehash := 1
  fullState := createState.entries

def savedStore : Store (List CompressedStateEvent) :=
  { (Store.empty 16).withRow (listHash createState.entries.sort) with
    compressor := createTable }

def createStore : Store (List CompressedStateEvent) :=
  savedStore.setRoomState "!room" 1

theorem step_create :
    step listHash (Store.empty 16) (.saveState "!room" createState) =
      (savedStore, .saved (.ok
        { shortstatehash := 1, added := createState.entries
          removed := ∅ })) := by
  have missing : (Store.empty 16).short.statehashShortstatehash
      (listHash createState.entries.sort) = none := rfl
  have counter : (Store.empty 16 : Store
      (List CompressedStateEvent)).short.counter < u64Max := by decide
  simp only [step, Store.saveState,
    getOrCreateShortstatehash_new missing counter]
  rfl

theorem createFrame_stackOf : StackOf createStore.table 1 [createFrame] := by
  have stored : createStore.table 1 = some (encodeStatediff createDiff) := rfl
  exact .root stored createState.proper.keyed (Nat.succ_pos 0) rfl

theorem createFrame_layered : Layered [createFrame] := by
  refine .cons .nil ⟨?_, ?_⟩ ?_
  · intro item _
    exact Finset.notMem_empty item
  · intro item member
    cases member
  · simp [createFrame, Diff.apply, baseOf]

theorem createStore_parents : createStore.ParentsOf
    (createStore.roomidShortstatehash "!room") [createFrame] :=
  ⟨createFrame_stackOf, createFrame_layered⟩

theorem createStore_sound : createStore.Sound := by
  have onlyOne : ∀ hash, createStore.table hash ≠ none → hash = 1 := by
    intro hash stored
    rcases saveStatediff_ne_none stored with same | old
    · exact same
    · exact absurd rfl old
  refine ⟨?_, ?_, ?_, ?_⟩
  · intro entry member
    cases member
  · intro hash stored
    rw [onlyOne hash stored]
    exact Nat.le_refl 1
  · intro hash stored
    rw [onlyOne hash stored]
    exact ⟨_, createFrame_stackOf⟩
  · intro key short found
    cases found

theorem manyState_card : (manyState count).entries.card = count := by
  rw [manyState, Finset.card_map, Finset.card_range]

theorem createState_card : createState.entries.card = 1 :=
  Finset.card_singleton _

theorem diffTo_manyState : diffTo [createFrame] (manyState count).entries =
      { added := (manyState count).entries, removed := createState.entries } := by
  have apart : Disjoint (manyState count).entries createState.entries :=
    Finset.disjoint_left.mpr (createState_disjoint count)
  simp only [diffTo, createFrame]
  rw [Finset.sdiff_eq_self_of_disjoint apart,
    Finset.sdiff_eq_self_of_disjoint apart.symm]

theorem manyState_missing (many : 1 < count) :
    createStore.short.statehashShortstatehash
      (listHash (manyState count).entries.sort) = none := by
  have different : listHash (manyState count).entries.sort ≠
      listHash createState.entries.sort := by
    intro same
    have sets := congrArg toFinset same
    simp only [listHash, id, Finset.sort_toFinset] at sets
    have size := congrArg Finset.card sets
    rw [manyState_card, createState_card] at size
    omega
  exact Function.update_of_ne different _ _

theorem saveState_many (many : 1 < count) (fits : count + 1 ≤ u64Max)
    (overflows : u64Max < (count + 1) * (count + 1)) :
    ∃ after, createStore.saveState listHash "!room"
          (manyState count).entries = (.error .arithmetic, after) ∧
      Store.Advances createStore after ∧
      after.short = (createStore.withRow
        (listHash (manyState count).entries.sort)).short ∧
      after.table = createStore.table := by
  apply saveState_failed listHash createStore_sound
    (manyState_missing count many) (by decide) createStore_parents
  intro compressor
  rw [diffTo_manyState]
  apply saveStateFromDiff_overflow
  · rw [manyState_card, createState_card]
    exact fits
  · exact Nat.succ_le_succ (Nat.zero_le 2)
  · simp only [createFrame, createState_card, Finset.card_empty]
    decide
  · rw [manyState_card, createState_card]
    exact overflows

theorem run_many (many : 1 < count) (fits : count + 1 ≤ u64Max)
    (overflows : u64Max < (count + 1) * (count + 1)) :
    let ended := run (step listHash) (Store.empty 16)
      [.saveState "!room" createState, .setRoomState "!room" 1,
        .saveState "!room" (manyState count),
        .saveState "!room" (manyState count)]
    Returned ended.1 2 ∧
      (ended.2.loadInfo 2).1 = .error (.missingStateDiff 2) := by
  obtain ⟨store, failed, advances, sameShort, sameTable⟩ :=
    saveState_many count many fits overflows
  have row : store.short.statehashShortstatehash
      (listHash (manyState count).entries.sort) = some 2 := by
    rw [sameShort]
    exact Function.update_self _ _ _
  have parents : store.ParentsOf (store.roomidShortstatehash "!room")
      [createFrame] := by
    rw [advances.rooms]
    exact ⟨createFrame_stackOf.mono advances.table, createFrame_layered⟩
  obtain ⟨answer, compressor, known, isHash, advances', sameTable'⟩ :=
    saveState_known listHash advances.sound row parents
  have missing : Store.table { store with compressor } 2 = none := by
    rw [Store.table, sameTable', sameTable]
    rfl
  have second : step listHash savedStore (.setRoomState "!room" 1) =
      (createStore, .done) := rfl
  have third := HistoryInv.step_saveState failed
  have fourth := HistoryInv.step_saveState known
  simp only [run, entryOf, step_create, second, third, fourth]
  constructor
  · refine ⟨_, mem_cons_of_mem _ (mem_cons_of_mem _
      (mem_cons_of_mem _ mem_cons_self)), .inr ⟨answer, rfl, isHash⟩⟩
  · simp only [Store.loadInfo, loadInfo_missing advances'.sound missing]

end

/-- A room of 2^32 state events: saving its state again after the failure
returns a hash that cannot be loaded. -/
theorem returned_not_loaded :
    let ended := run (step listHash) (Store.empty 16)
      [.saveState "!room" createState, .setRoomState "!room" 1,
        .saveState "!room" (manyState (2 ^ 32)),
        .saveState "!room" (manyState (2 ^ 32))]
    Returned ended.1 2 ∧
      (ended.2.loadInfo 2).1 = .error (.missingStateDiff 2) :=
  run_many (2 ^ 32) (by omega) (by rw [u64Max]; omega)
    (by rw [u64Max]; omega)

theorem listHash_collisionFree
    (history : List (StateEntry (List CompressedStateEvent))) :
    CollisionFree listHash history := by
  intro left right _ _ same
  have sets := congrArg toFinset same
  simpa only [listHash, id, Finset.sort_toFinset] using sets

def message : Pdu := Pdu.message "$message" "!room" "@user:server"

def quietRequests : List Request :=
  [.saveState "!room" createState, .setRoomState "!room" 1,
    .setEventState "$join" "!room" createState,
    .appendToState message "!room"]

theorem createStore_row : createStore.short.statehashShortstatehash
      (listHash createState.entries.sort) = some 1 :=
  Function.update_self _ _ _

theorem quietRequests_history :
    (run (step listHash) (Store.empty 16) quietRequests).1 =
      [] ++ [entryOf (step listHash) (Store.empty 16)
          (.saveState "!room" createState)] ++
        [entryOf (step listHash) savedStore (.setRoomState "!room" 1)] ++
        [entryOf (step listHash) createStore
          (.setEventState "$join" "!room" createState)] ++
        [entryOf (step listHash) (step listHash createStore
          (.setEventState "$join" "!room" createState)).1
          (.appendToState message "!room")] := by
  simp only [quietRequests, run, step_create]
  rfl

theorem quietRequests_fit : Always (StepFits listHash)
      (run (step listHash) (Store.empty 16) quietRequests).1 := by
  rw [quietRequests_history]
  refine (((Always.nil.snoc ?_).snoc ?_).snoc ?_).snoc ?_
  · intro _
    refine ⟨by decide, ?_⟩
    intro stack parents
    have empty : stack = [] := parents
    subst empty
    simp only [Fits, diffTo, createState_card, Finset.card_empty]
    decide
  · refine ⟨_, mem_cons_self, .inr ⟨
      { shortstatehash := 1, added := createState.entries, removed := ∅ },
      ?_, rfl⟩⟩
    simp only [entryOf, step_create]
  · intro missing
    exact absurd (missing.symm.trans createStore_row) (by simp)
  · intro stateKey impossible
    cases impossible

theorem quietRequests_load : ∃ top below after,
      (run (step listHash) (Store.empty 16) quietRequests).2.loadInfo 1 =
          (.ok (top :: below), after) ∧
        top.shortstatehash = 1 ∧ top.fullState = createState.entries ∧
        WellLayered (top :: below) := by
  apply (load_saved listHash (reaches_run _ _ _) quietRequests_fit
    (listHash_collisionFree _)).2
  rw [quietRequests_history, append_assoc, append_assoc]
  apply Saved.append
  apply saved_snoc.mpr
  left
  simp only [SavedBy, entryOf, step_create, and_self]

end ArcanaServer.Rooms
