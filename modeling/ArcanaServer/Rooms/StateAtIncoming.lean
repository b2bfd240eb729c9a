import ArcanaServer.Rooms.StateCompressor

namespace ArcanaServer.Rooms

open Library ArcanaServer.Matrix List

abbrev StateMap := AList (fun _ : TypeStateKey => EventId)

/-- What the server knows of the events of its rooms: the events with the short
id of the state before each, the states and the short ids of state keys. -/
structure EventStore (Digest : Type) where
  short : Short Digest
  pdus : EventId → Option Pdu
  shorteventidShortstatehash : ShortEventId → Option ShortStateHash
  loadFullState : ShortStateHash → Option CompressedState
  named : ∀ eventId pdu, pdus eventId = some pdu → pdu.eventId = eventId
  inverse : ∀ key shortstatekey,
    short.statekeyShortstatekey key = some shortstatekey ↔
      short.shortstatekeyStatekey shortstatekey = some key

namespace EventStore

variable {Digest : Type} (store : EventStore Digest)

def pduShortstatehash (eventId : EventId) : Option ShortStateHash := do
  let shorteventid ← store.short.eventidShorteventid eventId
  store.shorteventidShortstatehash shorteventid

variable (shortstatehash : ShortStateHash)

def stateFullShortids : List (ShortStateKey × ShortEventId) :=
  match store.loadFullState shortstatehash with
  | some fullState => fullState.sort.map parseCompressedStateEvent
  | none => []

/-- Entries whose event has no id are skipped. -/
def stateFullIds : List (ShortStateKey × EventId) :=
  (store.stateFullShortids shortstatehash).filterMap (fun entry =>
    (store.short.shorteventidEventid entry.2).map (fun eventId =>
      (entry.1, eventId)))

def recordedState : AList (fun _ : ShortStateKey => EventId) :=
  collect (store.stateFullIds shortstatehash)

/-- The state after the event, and the short ids after drawing one for its
state key. -/
def leafState (short : Short Digest) (shortstatehash : ShortStateHash)
    (prevEvent : Pdu) :
    AList (fun _ : ShortStateKey => EventId) × Short Digest :=
  let state := store.recordedState shortstatehash
  match prevEvent.stateKey with
  | none => (state, short)
  | some stateKey =>
      let (shortstatekey, short) :=
        short.getOrCreateShortstatekey (prevEvent.kind, stateKey)
      (state.insert shortstatekey prevEvent.eventId, short)

def nameKeys (short : Short Digest)
    (state : AList (fun _ : ShortStateKey => EventId)) :
    List (TypeStateKey × EventId) :=
  state.entries.filterMap (fun entry =>
    (short.shortstatekeyStatekey entry.1).map (fun key => (key, entry.2)))

/-- What `state_at_incoming_fork` hands to the state resolution: the state after
a previous event, and the events whose auth chain is asked for. -/
structure Fork where
  state : StateMap
  events : List EventId

variable (order : HashOrder)

def stateAtIncomingFork (short : Short Digest)
    (shortstatehash : ShortStateHash) (prevEvent : Pdu) :
    Fork × Short Digest :=
  let (state, short) := store.leafState short shortstatehash prevEvent
  ({ state := collect (nameKeys short (order.map state))
     events := (order.map state).entries.map Sigma.snd }, short)

def extremity (eventId : EventId) : Option (ShortStateHash × Pdu) := do
  let prevEvent ← store.pdus eventId
  let sstatehash ← store.pduShortstatehash eventId
  pure (sstatehash, prevEvent)

/-- The previous events by the state before them.  `completed` lists the
previous events in the order in which they were fetched. -/
def extremitySstatehashes (completed : List EventId) :
    Option (AList (fun _ : ShortStateHash => Pdu)) := do
  let pairs ← completed.mapM store.extremity
  pure (collect pairs)

def collectForks (short : Short Digest) :
    List ((_ : ShortStateHash) × Pdu) → List Fork × Short Digest
  | [] => ([], short)
  | entry :: rest =>
      let (fork, short) := store.stateAtIncomingFork order short entry.1 entry.2
      let (forks, short) := collectForks short rest
      (fork :: forks, short)

def forks (completed : List EventId) :
    Option (List Fork × Short Digest) := do
  let extremities ← store.extremitySstatehashes completed
  pure (store.collectForks order store.short (order.map extremities).entries)

def StateEvent (eventId : EventId) (key : TypeStateKey) : Prop :=
  ∃ pdu stateKey, store.pdus eventId = some pdu ∧
    pdu.stateKey = some stateKey ∧ key = (pdu.kind, stateKey)

/-- The event is known with the state before it.  The short id of its state key
was drawn when that state was recorded. -/
structure Known (eventId : EventId) : Prop where
  recorded : ∃ shortstatehash prevEvent,
    store.extremity eventId = some (shortstatehash, prevEvent)
  keyed : ∀ key, store.StateEvent eventId key → ∃ shortstatekey,
      store.short.statekeyShortstatekey key = some shortstatekey

def AllContribute (prevEvents : List EventId) (forks : List Fork) : Prop :=
  ∀ eventId ∈ prevEvents, ∀ key, store.StateEvent eventId key →
    ∃ fork ∈ forks, fork.state.lookup key = some eventId

def Kept (prevEvents : List EventId) (eventId : EventId)
    (key : TypeStateKey) : Prop :=
  (∀ other ∈ prevEvents,
    store.pduShortstatehash other = store.pduShortstatehash eventId →
      other = eventId) ∨
  ∃ via ∈ prevEvents, ∃ shortstatehash shortstatekey,
    store.pduShortstatehash via = some shortstatehash ∧
      store.short.statekeyShortstatekey key = some shortstatekey ∧
      (store.recordedState shortstatehash).lookup shortstatekey = some eventId ∧
      ∀ other ∈ prevEvents,
        store.pduShortstatehash other = some shortstatehash →
          store.StateEvent other key → other = eventId

section

variable {store}

variable {eventId : EventId} {shortstatehash : ShortStateHash} {prevEvent : Pdu}

theorem extremity_eq_some :
    store.extremity eventId = some (shortstatehash, prevEvent) ↔
      store.pdus eventId = some prevEvent ∧
        store.pduShortstatehash eventId = some shortstatehash := by
  simp only [extremity, Option.bind_eq_bind, Option.pure_def,
    Option.bind_eq_some_iff, Option.some.injEq, Prod.mk.injEq]
  constructor
  · intro found
    obtain ⟨pdu, isPdu, hash, isHash, sameHash, samePdu⟩ := found
    rw [← sameHash, ← samePdu]
    exact ⟨isPdu, isHash⟩
  · intro found
    exact ⟨prevEvent, found.1, shortstatehash, found.2, rfl, rfl⟩

theorem stateEvent_iff (found : store.pdus eventId = some prevEvent)
    (key : TypeStateKey) :
    store.StateEvent eventId key ↔
      ∃ stateKey, prevEvent.stateKey = some stateKey ∧
        key = (prevEvent.kind, stateKey) := by
  constructor
  · intro isState
    obtain ⟨pdu, stateKey, isPdu, rest⟩ := isState
    cases Option.some.inj (found.symm.trans isPdu)
    exact ⟨stateKey, rest⟩
  · intro isState
    obtain ⟨stateKey, rest⟩ := isState
    exact ⟨prevEvent, stateKey, found, rest⟩

theorem statekey_injective {left right : TypeStateKey}
    {shortstatekey : ShortStateKey}
    (isLeft : store.short.statekeyShortstatekey left = some shortstatekey)
    (isRight : store.short.statekeyShortstatekey right =
      some shortstatekey) : left = right :=
  Option.some.inj (((store.inverse left shortstatekey).mp isLeft).symm.trans
    ((store.inverse right shortstatekey).mp isRight))

theorem lookup_nameKeys
    (state : AList (fun _ : ShortStateKey => EventId)) (key : TypeStateKey)
    (eventId : EventId) :
    (collect (nameKeys store.short (order.map state))).lookup key =
        some eventId ↔
      ∃ shortstatekey,
        store.short.statekeyShortstatekey key = some shortstatekey ∧
          state.lookup shortstatekey = some eventId := by
  have listed : ∀ eventId,
      (key, eventId) ∈ nameKeys store.short (order.map state) ↔ ∃ shortstatekey,
          store.short.statekeyShortstatekey key = some shortstatekey ∧
            state.lookup shortstatekey = some eventId := by
    intro eventId
    simp only [nameKeys, mem_filterMap, Option.map_eq_some_iff, Prod.mk.injEq]
    constructor
    · intro named
      obtain ⟨entry, member, named, isKey, sameKey, sameEvent⟩ := named
      rw [sameKey] at isKey
      refine ⟨entry.1, (store.inverse key entry.1).mpr isKey, ?_⟩
      rw [← sameEvent, ← order.lookup_map state]
      exact AList.mem_lookup_iff.mpr member
    · intro found
      obtain ⟨shortstatekey, isShort, isEvent⟩ := found
      rw [← order.lookup_map state] at isEvent
      exact ⟨⟨shortstatekey, eventId⟩, AList.mem_lookup_iff.mp isEvent, key,
        (store.inverse key shortstatekey).mp isShort, rfl, rfl⟩
  constructor
  · intro found
    exact (listed eventId).mp (mem_of_lookup_collect found)
  · intro found
    apply lookup_collect ((listed eventId).mpr found)
    intro other isOther
    obtain ⟨shortstatekey, isShort, isEvent⟩ := found
    obtain ⟨shortstatekey', isShort', isEvent'⟩ := (listed other).mp isOther
    cases Option.some.inj (isShort.symm.trans isShort')
    exact Option.some.inj (isEvent'.symm.trans isEvent)

theorem leafState_short (known : store.Known eventId)
    (found : store.pdus eventId = some prevEvent) :
    (store.leafState store.short shortstatehash prevEvent).2 = store.short := by
  unfold leafState
  simp only
  split
  · rfl
  · rename_i stateKey isStateKey
    obtain ⟨shortstatekey, isShort⟩ := known.keyed (prevEvent.kind, stateKey)
      ⟨prevEvent, stateKey, found, isStateKey, rfl⟩
    rw [Short.getOrCreateShortstatekey, isShort]

section

variable {eventId : EventId} {shortstatehash : ShortStateHash} {prevEvent : Pdu}
  {key : TypeStateKey} {shortstatekey : ShortStateKey}
  (known : store.Known eventId) (found : store.pdus eventId = some prevEvent)
  (isShort : store.short.statekeyShortstatekey key = some shortstatekey)
  (other : EventId)
include known found isShort other

theorem lookup_leafState :
    (store.leafState store.short shortstatehash prevEvent).1.lookup
        shortstatekey = some other ↔
      store.StateEvent eventId key ∧ other = eventId ∨
        ¬ store.StateEvent eventId key ∧
          (store.recordedState shortstatehash).lookup shortstatekey =
            some other := by
  rw [stateEvent_iff found]
  unfold leafState
  simp only
  cases isStateKey : prevEvent.stateKey with
  | none => simp
  | some stateKey =>
      obtain ⟨own, isOwn⟩ := known.keyed (prevEvent.kind, stateKey)
        ⟨prevEvent, stateKey, found, isStateKey, rfl⟩
      simp only [Short.getOrCreateShortstatekey, isOwn, Option.some.injEq,
        exists_eq_left']
      rcases Decidable.em (key = (prevEvent.kind, stateKey)) with
        same | different
      · rw [same, isOwn] at isShort
        cases isShort
        simp [same, AList.lookup_insert, store.named eventId prevEvent found,
          eq_comm]
      · have differentShort : shortstatekey ≠ own := by
          intro sameShort
          rw [sameShort] at isShort
          exact different (statekey_injective isShort isOwn)
        rw [AList.lookup_insert_ne differentShort]
        simp [different]

theorem lookup_fork :
    (store.stateAtIncomingFork order store.short shortstatehash
        prevEvent).1.state.lookup key = some other ↔
      store.StateEvent eventId key ∧ other = eventId ∨
        ¬ store.StateEvent eventId key ∧
          (store.recordedState shortstatehash).lookup shortstatekey =
            some other := by
  rw [← lookup_leafState known found isShort other]
  unfold stateAtIncomingFork
  simp only [leafState_short known found]
  rw [lookup_nameKeys]
  simp only [isShort, Option.some.injEq, exists_eq_left']

end

theorem mem_collectForks {entries : List ((_ : ShortStateHash) × Pdu)}
    (known : ∀ entry ∈ entries, ∃ eventId,
      store.Known eventId ∧ store.pdus eventId = some entry.2) (fork : Fork) :
    fork ∈ (store.collectForks order store.short entries).1 ↔
      ∃ entry ∈ entries, fork = (store.stateAtIncomingFork order store.short
        entry.1 entry.2).1 := by
  induction entries with
  | nil => simp [collectForks]
  | cons entry rest ih =>
      obtain ⟨eventId, isKnown, found⟩ := known entry mem_cons_self
      have same : (store.stateAtIncomingFork order store.short entry.1
          entry.2).2 = store.short := leafState_short isKnown found
      have later := ih (fun other member =>
        known other (mem_cons_of_mem _ member))
      simp only [collectForks, same, mem_cons, later, exists_eq_or_imp]

variable {completed : List EventId}

theorem mapM_extremity (known : ∀ eventId ∈ completed, store.Known eventId) :
    completed.mapM store.extremity =
      some (completed.filterMap store.extremity) := by
  induction completed with
  | nil => rfl
  | cons eventId rest ih =>
      obtain ⟨shortstatehash, prevEvent, isRecorded⟩ :=
        (known eventId mem_cons_self).recorded
      rw [mapM_cons, ih (fun other member =>
        known other (mem_cons_of_mem _ member)), isRecorded,
        filterMap_cons_some isRecorded]
      rfl

theorem mem_forks (known : ∀ eventId ∈ completed, store.Known eventId) :
    ∃ forks short, store.forks order completed = some (forks, short) ∧
      ∀ fork, fork ∈ forks ↔ ∃ shortstatehash prevEvent,
        (collect (completed.filterMap store.extremity)).lookup
            shortstatehash = some prevEvent ∧
          fork = (store.stateAtIncomingFork order store.short shortstatehash
            prevEvent).1 := by
  refine ⟨_, _, by
    simp only [forks, extremitySstatehashes, mapM_extremity known]
    rfl, ?_⟩
  intro fork
  rw [mem_collectForks]
  · constructor
    · intro listed
      obtain ⟨entry, member, isFork⟩ := listed
      refine ⟨entry.1, entry.2, ?_, isFork⟩
      rw [← order.lookup_map]
      exact AList.mem_lookup_iff.mpr member
    · intro kept
      obtain ⟨shortstatehash, prevEvent, found, isFork⟩ := kept
      rw [← order.lookup_map] at found
      exact ⟨⟨shortstatehash, prevEvent⟩, AList.mem_lookup_iff.mp found, isFork⟩
  · intro entry member
    have found := AList.mem_lookup_iff.mpr member
    rw [order.lookup_map] at found
    obtain ⟨eventId, isCompleted, isRecorded⟩ :=
      mem_filterMap.mp (mem_of_lookup_collect found)
    exact ⟨eventId, known eventId isCompleted,
      (extremity_eq_some.mp isRecorded).1⟩

section

variable {prevEvents : List EventId} {eventId : EventId} {key : TypeStateKey}
  (known : ∀ other ∈ prevEvents, store.Known other)
include known

theorem Kept.contributes (perm : completed.Perm prevEvents)
    (member : eventId ∈ prevEvents) (isState : store.StateEvent eventId key)
    (kept : store.Kept prevEvents eventId key) {forks : List Fork}
    (given : ∀ fork, fork ∈ forks ↔ ∃ shortstatehash prevEvent,
      (collect (completed.filterMap store.extremity)).lookup
          shortstatehash = some prevEvent ∧
        fork = (store.stateAtIncomingFork order store.short shortstatehash
          prevEvent).1) :
    ∃ fork ∈ forks, fork.state.lookup key = some eventId := by
  obtain ⟨shortstatekey, isShort⟩ := (known eventId member).keyed key isState
  rcases kept with alone | elsewhere
  · obtain ⟨shortstatehash, prevEvent, isRecorded⟩ :=
      (known eventId member).recorded
    obtain ⟨found, isHash⟩ := extremity_eq_some.mp isRecorded
    have stays : (collect (completed.filterMap store.extremity)).lookup
        shortstatehash = some prevEvent := by
      apply lookup_collect (mem_filterMap.mpr
        ⟨eventId, perm.mem_iff.mpr member, isRecorded⟩)
      intro other listed
      obtain ⟨otherId, isCompleted, isOther⟩ := mem_filterMap.mp listed
      obtain ⟨otherFound, otherHash⟩ := extremity_eq_some.mp isOther
      have same := alone otherId (perm.mem_iff.mp isCompleted)
        (otherHash.trans isHash.symm)
      rw [same] at otherFound
      exact Option.some.inj (otherFound.symm.trans found)
    refine ⟨_, (given _).mpr ⟨shortstatehash, prevEvent, stays, rfl⟩, ?_⟩
    exact (lookup_fork order (known eventId member) found isShort
      eventId).mpr (.inl ⟨isState, rfl⟩)
  · obtain ⟨via, isVia, shortstatehash, shortstatekey', viaHash, isShort',
      isEntry, notReplaced⟩ := elsewhere
    cases Option.some.inj (isShort.symm.trans isShort')
    obtain ⟨viaHash', viaEvent, viaRecorded⟩ := (known via isVia).recorded
    cases Option.some.inj
      (viaHash.symm.trans (extremity_eq_some.mp viaRecorded).2)
    obtain ⟨last, stays⟩ := lookup_collect_isSome
      (mem_filterMap.mpr ⟨via, perm.mem_iff.mpr isVia, viaRecorded⟩)
    obtain ⟨lastId, isCompleted, isLast⟩ :=
      mem_filterMap.mp (mem_of_lookup_collect stays)
    obtain ⟨found, lastHash⟩ := extremity_eq_some.mp isLast
    have lastMember := perm.mem_iff.mp isCompleted
    refine ⟨_, (given _).mpr ⟨shortstatehash, last, stays, rfl⟩, ?_⟩
    apply (lookup_fork order (known lastId lastMember) found isShort
      eventId).mpr
    rcases Classical.em (store.StateEvent lastId key) with lastState | notState
    · exact .inl ⟨lastState,
        (notReplaced lastId lastMember lastHash lastState).symm⟩
    · exact .inr ⟨notState, isEntry⟩

def Drops (eventId : EventId) (key : TypeStateKey) (via : EventId) : Prop :=
  ∀ shortstatehash prevEvent,
    store.extremity via = some (shortstatehash, prevEvent) →
      (store.stateAtIncomingFork order store.short shortstatehash
        prevEvent).1.state.lookup key ≠ some eventId

/-- If an event is not kept, each state before a previous event has a previous
event whose fork drops it. -/
theorem exists_drops (member : eventId ∈ prevEvents)
    (isState : store.StateEvent eventId key)
    (lost : ¬ store.Kept prevEvents eventId key) {via : EventId}
    (isVia : via ∈ prevEvents) :
    ∃ other ∈ prevEvents,
      store.pduShortstatehash other = store.pduShortstatehash via ∧
        store.Drops order eventId key other := by
  obtain ⟨shortstatekey, isShort⟩ := (known eventId member).keyed key isState
  obtain ⟨viaHash, viaEvent, viaRecorded⟩ := (known via isVia).recorded
  have isViaHash := (extremity_eq_some.mp viaRecorded).2
  -- What a fork of this state would need to have the event.
  have dropsUnless : ∀ other ∈ prevEvents,
      store.pduShortstatehash other = some viaHash →
      (store.StateEvent other key → other ≠ eventId) →
      (¬ store.StateEvent other key →
        (store.recordedState viaHash).lookup shortstatekey ≠ some eventId) →
      store.Drops order eventId key other := by
    intro other isOther otherHash notItself notRecorded hash pdu isRecorded has
    obtain ⟨found, isHash⟩ := extremity_eq_some.mp isRecorded
    cases Option.some.inj (otherHash.symm.trans isHash)
    cases (lookup_fork order (known other isOther) found isShort eventId).mp
        has with
    | inl itself => exact notItself itself.1 itself.2.symm
    | inr recorded => exact notRecorded recorded.1 recorded.2
  obtain ⟨shared, nowhere⟩ := not_or.mp lost
  rw [isViaHash]
  cases Classical.em (∃ other ∈ prevEvents,
      store.pduShortstatehash other = some viaHash ∧
        store.StateEvent other key ∧ other ≠ eventId) with
  | inl replaced =>
      obtain ⟨other, isOther, otherHash, otherState, different⟩ := replaced
      exact ⟨other, isOther, otherHash, dropsUnless other isOther otherHash
        (fun _ => different) (fun notState => absurd otherState notState)⟩
  | inr notReplaced =>
      have notRecorded : (store.recordedState viaHash).lookup shortstatekey ≠
          some eventId := by
        intro isEntry
        refine nowhere ⟨via, isVia, viaHash, shortstatekey, isViaHash, isShort,
          isEntry, ?_⟩
        intro other isOther otherHash otherState
        exact Classical.byContradiction (fun different =>
          notReplaced ⟨other, isOther, otherHash, otherState, different⟩)
      rcases Decidable.em (via = eventId) with same | different
      · have notAlone : ∃ other ∈ prevEvents, store.pduShortstatehash other =
              store.pduShortstatehash eventId ∧ other ≠ eventId :=
          Classical.byContradiction (fun none => shared
            (fun other isOther sameHash => Classical.byContradiction
              (fun different => none ⟨other, isOther, sameHash, different⟩)))
        obtain ⟨other, isOther, sameHash, different⟩ := notAlone
        rw [← same, isViaHash] at sameHash
        exact ⟨other, isOther, sameHash, dropsUnless other isOther sameHash
          (fun _ => different) (fun _ => notRecorded)⟩
      · exact ⟨via, isVia, isViaHash, dropsUnless via isVia isViaHash
          (fun _ => different) (fun _ => notRecorded)⟩

end

end

/-- The previous state events all contribute, in whatever order they are
fetched, if and only if each of them is kept. -/
theorem forks_allContribute_iff (incoming : Pdu)
    (known : ∀ eventId ∈ incoming.prevEvents, store.Known eventId) :
    (∀ (order : HashOrder) (completed : List EventId),
      completed.Perm incoming.prevEvents →
        ∃ forks short, store.forks order completed = some (forks, short) ∧
          store.AllContribute incoming.prevEvents forks) ↔
      ∀ eventId ∈ incoming.prevEvents, ∀ key, store.StateEvent eventId key →
          store.Kept incoming.prevEvents eventId key := by
  constructor
  · intro contribute eventId member key isState
    apply Classical.byContradiction
    intro lost
    classical
    -- The previous events whose fork drops the event are fetched last.
    let drops := fun via => decide (store.Drops .inserted eventId key via)
    let early := incoming.prevEvents.filter (fun via => !drops via)
    let late := incoming.prevEvents.filter drops
    have perm : (early ++ late).Perm incoming.prevEvents :=
      perm_append_comm.trans (filter_append_perm drops _)
    obtain ⟨forks, short, given, all⟩ :=
      contribute .inserted (early ++ late) perm
    obtain ⟨forks', short', given', isFork⟩ := mem_forks .inserted
      (fun via isVia => known via (perm.mem_iff.mp isVia))
    rw [given] at given'
    cases given'
    obtain ⟨fork, isMember, has⟩ := all eventId member key isState
    obtain ⟨shortstatehash, prevEvent, stays, same⟩ := (isFork fork).mp isMember
    obtain ⟨via, isVia, isRecorded⟩ :=
      mem_filterMap.mp (mem_of_lookup_collect stays)
    have viaHash := (extremity_eq_some.mp isRecorded).2
    obtain ⟨other, isOther, sameHash, otherDrops⟩ := exists_drops .inserted
      known member isState lost (perm.mem_iff.mp isVia)
    obtain ⟨otherHash, otherEvent, otherRecorded⟩ :=
      (known other isOther).recorded
    have isOtherHash := (extremity_eq_some.mp otherRecorded).2
    rw [sameHash, viaHash] at isOtherHash
    cases isOtherHash
    have isLate : (shortstatehash, otherEvent) ∈
        late.filterMap store.extremity :=
      mem_filterMap.mpr ⟨other, mem_filter.mpr
        ⟨isOther, decide_eq_true otherDrops⟩, otherRecorded⟩
    rw [filterMap_append, lookup_collect_append isLate] at stays
    obtain ⟨last, isLast, lastRecorded⟩ :=
      mem_filterMap.mp (mem_of_lookup_collect stays)
    have lastDrops := of_decide_eq_true (mem_filter.mp isLast).2
    rw [same] at has
    exact lastDrops shortstatehash prevEvent lastRecorded has
  · intro kept order completed perm
    obtain ⟨forks, short, given, isFork⟩ := mem_forks order
      (fun via isVia => known via (perm.mem_iff.mp isVia))
    refine ⟨forks, short, given, ?_⟩
    intro eventId member key isState
    exact Kept.contributes order known perm member isState
      (kept eventId member key isState) isFork

end EventStore

def stateEvent (eventId : EventId) (kind : String) : Pdu :=
  { Pdu.message eventId "!room" "@user:server" with
    kind := .other kind, stateKey := some "", prevEvents := ["$parent"] }

def topicKey : TypeStateKey := (.other "m.room.topic", "")

def nameKey : TypeStateKey := (.other "m.room.name", "")

def siblingShort : Short Unit where
  counter := 4
  eventidShorteventid := fun eventId =>
    if eventId = "$left" then some 3
    else if eventId = "$right" then some 4 else none
  shorteventidEventid := fun shorteventid =>
    if shorteventid = 3 then some "$left"
    else if shorteventid = 4 then some "$right" else none
  statekeyShortstatekey := fun key =>
    if key = topicKey then some 1
    else if key = nameKey then some 2 else none
  shortstatekeyStatekey := fun shortstatekey =>
    if shortstatekey = 1 then some topicKey
    else if shortstatekey = 2 then some nameKey else none
  statehashShortstatehash := fun _ => none

theorem siblingShort_inverse (key : TypeStateKey)
    (shortstatekey : ShortStateKey) :
    siblingShort.statekeyShortstatekey key = some shortstatekey ↔
      siblingShort.shortstatekeyStatekey shortstatekey = some key := by
  have different : nameKey ≠ topicKey := by decide
  simp only [siblingShort]
  constructor
  · intro found
    split at found
    · rename_i isTopic
      cases found
      rw [isTopic, if_pos rfl]
    · split at found
      · rename_i isName
        cases found
        rw [isName, if_neg (by decide), if_pos rfl]
      · cases found
  · intro found
    split at found
    · rename_i isOne
      cases found
      rw [isOne, if_pos rfl]
    · split at found
      · rename_i isTwo
        cases found
        rw [isTwo, if_neg different, if_pos rfl]
      · cases found

variable (leftHash rightHash : ShortStateHash)

def siblingStore : EventStore Unit where
  short := siblingShort
  pdus := fun eventId =>
    if eventId = "$left" then some (stateEvent "$left" "m.room.topic")
    else if eventId = "$right" then some (stateEvent "$right" "m.room.name")
    else none
  shorteventidShortstatehash := fun shorteventid =>
    if shorteventid = 3 then some leftHash
    else if shorteventid = 4 then some rightHash else none
  loadFullState := fun _ => some ∅
  named := by
    intro eventId pdu found
    split at found
    · rename_i isLeft
      cases found
      exact isLeft.symm
    · split at found
      · rename_i isRight
        cases found
        exact isRight.symm
      · cases found
  inverse := siblingShort_inverse

theorem siblingStore_recordedState (shortstatehash : ShortStateHash) :
    (siblingStore leftHash rightHash).recordedState shortstatehash = ∅ := by
  simp [EventStore.recordedState, EventStore.stateFullIds,
    EventStore.stateFullShortids, siblingStore, collect]

def merging : Pdu :=
  { stateEvent "$merging" "m.room.avatar" with
    prevEvents := ["$left", "$right"] }

theorem merging_known :
    ∀ eventId ∈ merging.prevEvents,
      (siblingStore leftHash rightHash).Known eventId := by
  intro eventId member
  have named : eventId = "$left" ∨ eventId = "$right" := by
    simpa [merging] using member
  rcases named with isLeft | isRight
  · subst isLeft
    refine ⟨⟨_, _, rfl⟩, ?_⟩
    intro key isState
    obtain ⟨pdu, stateKey, found, isKey, same⟩ := isState
    cases found
    cases isKey
    exact ⟨1, by rw [same]; rfl⟩
  · subst isRight
    refine ⟨⟨_, _, rfl⟩, ?_⟩
    intro key isState
    obtain ⟨pdu, stateKey, found, isKey, same⟩ := isState
    cases found
    cases isKey
    exact ⟨2, by rw [same]; rfl⟩

/-- Two events on one parent state: only the one fetched last gives a fork. -/
theorem siblings_not_allContribute :
    ∃ forks short, (siblingStore 5 5).forks .inserted merging.prevEvents =
        some (forks, short) ∧
      ¬ (siblingStore 5 5).AllContribute merging.prevEvents forks := by
  refine ⟨_, _, rfl, ?_⟩
  intro all
  obtain ⟨fork, member, found⟩ := all "$left" (by decide) topicKey
    ⟨stateEvent "$left" "m.room.topic", "", rfl, rfl, rfl⟩
  cases mem_singleton.mp member
  cases (EventStore.lookup_fork .inserted
    (merging_known 5 5 "$right" (by decide)) rfl rfl "$left").mp found with
  | inl itself => exact absurd itself.2 (by decide)
  | inr recorded =>
      rw [siblingStore_recordedState] at recorded
      cases recorded.2

theorem merging_kept : ∀ eventId ∈ merging.prevEvents, ∀ key,
    (siblingStore 5 6).StateEvent eventId key →
      (siblingStore 5 6).Kept merging.prevEvents eventId key := by
  have alone : ∀ eventId ∈ merging.prevEvents, ∀ other ∈ merging.prevEvents,
        (siblingStore 5 6).pduShortstatehash other =
          (siblingStore 5 6).pduShortstatehash eventId →
        other = eventId := by
    decide
  intro eventId member key _
  exact .inl (alone eventId member)

theorem merging_allContribute :
    ∃ forks short, (siblingStore 5 6).forks .inserted ["$right", "$left"] =
        some (forks, short) ∧
      (siblingStore 5 6).AllContribute merging.prevEvents forks :=
  ((siblingStore 5 6).forks_allContribute_iff merging
    (merging_known 5 6)).mpr merging_kept .inserted ["$right", "$left"]
      (List.Perm.swap _ _ _)

end ArcanaServer.Rooms
