import ArcanaServer.Rooms.AuthChainExact

namespace ArcanaServer.Rooms

open Library ArcanaServer.Matrix List AuthWorld EventNumbers

theorem staysIn_iff {pdus : List Pdu} {roomId : RoomId} {starts : Set EventId} :
    StaysIn pdus roomId starts ↔
      ∀ start ∈ starts, StaysIn pdus roomId {start} := by
  constructor
  · intro stays start begins eventId passed
    obtain ⟨first, isStart, path⟩ := passed
    cases isStart
    exact stays eventId ⟨start, begins, path⟩
  · intro each eventId passed
    obtain ⟨start, begins, path⟩ := passed
    exact each start begins eventId ⟨start, rfl, path⟩

theorem Leaves.not_staysIn {pdus : List Pdu} {roomId : RoomId}
    {start : EventId} (leaves : Leaves pdus roomId start) :
    ¬ StaysIn pdus roomId {start} := by
  intro stays
  obtain ⟨eventId, passed, pdu, found, outside⟩ := leaves
  have inside := stays eventId passed pdu found
  rw [outside] at inside
  cases inside

theorem sortDedup_pairwise (chain : List ShortEventId) :
    (sortDedup chain).Pairwise (· < ·) := by
  have sorted : (sortDedup chain).Pairwise (· ≤ ·) :=
    pairwise_insertionSort (· ≤ ·) _
  have distinct : (sortDedup chain).Nodup :=
    (perm_insertionSort (· ≤ ·) _).nodup_iff.mpr (nodup_dedup chain)
  exact (sorted.and distinct).imp (fun both => Nat.lt_of_le_of_ne both.1 both.2)

variable {ids : Finset EventId} {starts : List Numbered}

theorem mem_bucket {index : Nat} {start : Numbered} :
    start ∈ bucket starts index ↔
      start ∈ starts ∧ start.1 % numBuckets = index := by
  simp [bucket, mem_insertionSort]

theorem mem_buckets {start : Numbered} :
    start ∈ (range numBuckets).flatMap (bucket starts) ↔ start ∈ starts := by
  constructor
  · intro member
    obtain ⟨index, _, inside⟩ := mem_flatMap.mp member
    exact (mem_bucket.mp inside).1
  · intro member
    have small : start.1 % numBuckets < numBuckets := Nat.mod_lt _ (by decide)
    exact mem_flatMap.mpr ⟨start.1 % numBuckets, mem_range.mpr small,
      mem_bucket.mpr ⟨member, rfl⟩⟩

structure Numbering (ids : Finset EventId) (world : AuthWorld)
    (startingEvents : List EventId) (starts : List Numbered)
    (after : AuthWorld) : Prop where
  changed : ∃ numbers, after = { world with numbers }
  extends_ : world.numbers.Extends after.numbers
  issues : Issues ids after.numbers
  names : Names after.numbers starts
  events : starts.map Prod.snd = startingEvents

theorem numberStart_meets {world middle : AuthWorld} {visited : List EventId}
    {eventId : EventId} (listed : eventId ∈ ids)
    (numbering : Numbering ids world visited starts middle) :
    Meets (Numbering ids world (visited ++ [eventId])) (fun _ _ => False)
      (numberStart starts eventId middle) := by
  obtain ⟨numbers, rfl⟩ := numbering.changed
  obtain ⟨kept, again, isShort⟩ :=
    getOrCreate_extends listed numbering.issues
  refine ⟨⟨_, rfl⟩, numbering.extends_.trans kept, again, ?_, ?_⟩
  · exact forall_mem_snoc
      (fun start old => kept _ _ (numbering.names start old)) isShort
  · rw [map_append, numbering.events]
    rfl

theorem numbering_meets {startingEvents : List EventId}
    (listed : ∀ eventId ∈ startingEvents, eventId ∈ ids) {world : AuthWorld}
    (issues : Issues ids world.numbers) :
    Meets (Numbering ids world startingEvents) (fun _ _ => False)
      (startingEvents.foldlM numberStart [] world) := by
  have begins : Numbering ids world [] [] world := by
    refine ⟨⟨world.numbers, rfl⟩, .refl _, issues, ?_, rfl⟩
    intro start member
    cases member
  exact Meets.foldlM (Numbering ids world)
    (fun eventId member visited starts middle numbering =>
      numberStart_meets (listed eventId member) numbering) [] [] world begins

/-- The answer that the stored PDUs give: the sorted short ids of everything
that the starting events lead to, or the error of the check of the room. -/
def AnswersExactly (pdus : List Pdu) (roomId : RoomId)
    (startingEvents : List EventId) (numbers : EventNumbers) :
    Except AuthChainError (List ShortEventId) → Prop
  | .ok chain =>
      StaysIn pdus roomId { start | start ∈ startingEvents } ∧
      chain.Pairwise (· < ·) ∧
      Chained pdus numbers { start | start ∈ startingEvents } chain
  | .error error =>
      ¬ StaysIn pdus roomId { start | start ∈ startingEvents } ∧
      error = wrongRoom

def Checked (world : AuthWorld) (roomId : RoomId)
    (startingEvents : List EventId) : Prop :=
  StaysIn world.pdus roomId { start | start ∈ startingEvents } ∨
    ∃ start ∈ startingEvents, ¬ StaysIn world.pdus roomId {start} ∧
      ∀ short, world.numbers.eventidShorteventid start = some short →
        world.shorteventidAuthchain short = none

section

variable {world middle : AuthWorld} {roomId : RoomId}
  {startingEvents : List EventId} {starts : List Numbered}

theorem Numbering.eventsOf_buckets
    (numbering : Numbering ids world startingEvents starts middle) :
    eventsOf ((range numBuckets).flatMap (bucket starts)) =
      { start | start ∈ startingEvents } := by
  ext eventId
  rw [← numbering.events]
  constructor
  · rintro ⟨start, member, rfl⟩
    exact mem_map_of_mem (mem_buckets.mp member)
  · intro listed
    obtain ⟨start, member, rfl⟩ := mem_map.mp listed
    exact ⟨start, mem_buckets.mpr member, rfl⟩

section

variable (inv : CacheInv ids world)
  (numbering : Numbering ids world startingEvents starts middle)
include inv numbering

theorem Numbering.unstored {start : Numbered} (member : start ∈ starts)
    (unknown : ∀ short, world.numbers.eventidShorteventid start.2 = some short →
      world.shorteventidAuthchain short = none) :
    middle.shorteventidAuthchain start.1 = none := by
  obtain ⟨numbers, rfl⟩ := numbering.changed
  cases row : world.shorteventidAuthchain start.1 with
  | none => rfl
  | some chain =>
      obtain ⟨eventId, isShort, _⟩ := inv.stored start.1 chain row
      have same : eventId = start.2 := numbering.issues.injective _ _ _
        (numbering.extends_ _ _ isShort) (numbering.names start member)
      rw [unknown start.1 (same ▸ isShort)] at row
      cases row

theorem Numbering.staysIn (checked : Checked world roomId startingEvents)
    {chain : List ShortEventId} {after : AuthWorld}
    (gathered : Gathered ids middle roomId
      ((range numBuckets).flatMap (bucket starts)) chain after) :
    StaysIn world.pdus roomId { start | start ∈ startingEvents } := by
  rcases checked with stays | fails
  · exact stays
  · obtain ⟨eventId, listed, leaves, unknown⟩ := fails
    rw [← numbering.events] at listed
    obtain ⟨start, member, rfl⟩ := mem_map.mp listed
    have unstored := numbering.unstored inv member unknown
    rcases gathered.checked start (mem_buckets.mpr member) with stays | cached
    · obtain ⟨numbers, rfl⟩ := numbering.changed
      exact absurd stays leaves
    · rw [unstored] at cached
      cases cached

end

end

theorem getAuthChain_meets {world : AuthWorld} {roomId : RoomId}
    {startingEvents : List EventId} (inv : CacheInv ids world)
    (listed : ∀ eventId ∈ startingEvents, eventId ∈ ids)
    (checked : Checked world roomId startingEvents) :
    Meets (fun chain after => CacheInv ids after ∧
        AnswersExactly world.pdus roomId startingEvents after.numbers
          (.ok chain))
      (fun error after => CacheInv ids after ∧ AnswersExactly world.pdus roomId
        startingEvents after.numbers (.error error))
      (getAuthChain roomId startingEvents world) := by
  have numbers : Meets (Numbering ids world startingEvents)
      (fun error after => CacheInv ids after ∧ AnswersExactly world.pdus roomId
        startingEvents after.numbers (.error error))
      (startingEvents.foldlM numberStart [] world) :=
    (numbering_meets listed inv.numbers).mono
      (fun _ _ numbering => numbering) (fun _ _ never => never.elim)
  unfold getAuthChain
  refine numbers.bind (fun starts middle numbering => ?_)
  have again : CacheInv ids middle := by
    obtain ⟨numbers, rfl⟩ := numbering.changed
    exact inv.extends_ numbering.extends_ numbering.issues
  have same : middle.pdus = world.pdus := by
    obtain ⟨numbers, rfl⟩ := numbering.changed
    rfl
  have collects := collectChains_meets (bucket starts)
    (fun index world inv names =>
      getAuthChainOuter_meets roomId (bucket starts index) world inv names)
    (range numBuckets) again
    (fun start member => numbering.names start (mem_buckets.mp member))
  cases result : collectChains
      (fun index => getAuthChainOuter roomId (bucket starts index))
      (range numBuckets) middle with
  | ok chain after =>
      rw [result] at collects
      rw [bind_of_ok _ result]
      have chained := collects.chained.congr
        (fun short => (mem_sortDedup : short ∈ sortDedup chain ↔ _))
      rw [numbering.eventsOf_buckets, same] at chained
      exact ⟨collects.inv, numbering.staysIn inv checked collects,
        sortDedup_pairwise chain, chained⟩
  | error error after =>
      rw [result] at collects
      rw [bind_of_error _ result]
      obtain ⟨start, member, leaves⟩ := collects.leaves
      refine ⟨collects.inv, fun stays => ?_, collects.wrong⟩
      have listed : start.2 ∈ startingEvents := by
        rw [← numbering.events]
        exact mem_map_of_mem (mem_buckets.mp member)
      rw [same] at leaves
      exact leaves.not_staysIn (staysIn_iff.mp stays start.2 listed)

inductive AuthAction where
  | insertPdu (pdu : Pdu)
  | numberEvent (eventId : EventId)
  | clearCache
  | getAuthChain (roomId : RoomId) (startingEvents : List EventId)

namespace AuthWorld

variable (world : AuthWorld)

def act :
    AuthAction → EStateM.Result AuthChainError AuthWorld (List ShortEventId)
  | .insertPdu pdu => .ok [] { world with pdus := pdu :: world.pdus }
  | .numberEvent eventId =>
      .ok [] { world with numbers := (world.numbers.getOrCreate eventId).2 }
  | .clearCache =>
      .ok [] { world with authChainCache := world.authChainCache.clear }
  | .getAuthChain roomId startingEvents =>
      getAuthChain roomId startingEvents world

def step (action : AuthAction) :
    AuthWorld × Except AuthChainError (List ShortEventId) :=
  (ended (world.act action), outcome (world.act action))

def Unmet (eventId : EventId) : Prop :=
  ∀ short chain, world.shorteventidAuthchain short = some chain →
    ∀ own, world.numbers.eventidShorteventid eventId = some own →
      own ≠ short ∧ own ∉ chain

/-- A PDU that is new is not one that an earlier walk has missed, and a call for
events that do not pass the check of the room makes the check. -/
def Orderly : AuthAction → Prop
  | .insertPdu pdu =>
      getPdu world.pdus pdu.eventId = some pdu ∨ world.Unmet pdu.eventId
  | .getAuthChain roomId startingEvents =>
      Checked world roomId startingEvents
  | _ => True

/-- The events that a step may give a number to, now or later. -/
def named : AuthAction → List EventId
  | .insertPdu pdu => pdu.authEvents
  | .numberEvent eventId => [eventId]
  | .clearCache => []
  | .getAuthChain _ startingEvents => startingEvents

/-- The counter has a number for each of the events. -/
structure HasRoom (ids : Finset EventId) : Prop where
  cited : ∀ pdu ∈ world.pdus, ∀ eventId ∈ pdu.authEvents, eventId ∈ ids
  counter : world.numbers.counter + ids.card ≤ u64Max

structure Fresh : Prop where
  numbers : world.numbers.OneToOne
  stored : ∀ short, world.shorteventidAuthchain short = none
  memory : world.authChainCache.entries = []

end AuthWorld

section

variable {world : AuthWorld} {pdu : Pdu}

theorem getPdu_cons (pdus : List Pdu) (pdu : Pdu) (eventId : EventId) :
    getPdu (pdu :: pdus) eventId =
      if pdu.eventId = eventId then some pdu else getPdu pdus eventId := by
  unfold getPdu
  rw [find?_cons]
  by_cases same : pdu.eventId = eventId
  · simp [same]
  · rw [if_neg same, beq_false_of_ne same]

theorem authEventsOf_cons {pdus : List Pdu} {pdu : Pdu} {eventId : EventId}
    (same : getPdu pdus pdu.eventId = some pdu ∨ pdu.eventId ≠ eventId) :
    authEventsOf (pdu :: pdus) eventId = authEventsOf pdus eventId := by
  unfold authEventsOf
  rw [getPdu_cons]
  split
  next equal =>
    have kept := same.resolve_right (fun differs => differs equal)
    rw [← equal, kept]
  · rfl

/-- An event that the walk of a stored chain passes is its start or is in the
chain. -/
theorem CacheInv.not_visited (inv : CacheInv ids world)
    (unmet : world.Unmet pdu.eventId) {short : ShortEventId}
    (stored : (world.shorteventidAuthchain short).isSome = true)
    {start : EventId}
    (isShort : world.numbers.eventidShorteventid start = some short) :
    pdu.eventId ∉ visited (authEventsOf world.pdus) {start} := by
  obtain ⟨chain, row⟩ := Option.isSome_iff_exists.mp stored
  obtain ⟨twin, isTwin, chained⟩ := inv.stored short chain row
  have same := inv.numbers.injective _ _ _ isTwin isShort
  subst same
  intro passed
  rcases mem_visited.mp passed with isStart | inside
  · cases isStart
    exact (unmet short chain row short isShort).1 rfl
  · obtain ⟨own, member, isOwn⟩ := chained.complete _ inside
    exact (unmet short chain row own isOwn).2 member

theorem Chained.insert {numbers : EventNumbers} {starts : Set EventId}
    {chain : List ShortEventId}
    (chained : Chained world.pdus numbers starts chain)
    (same : getPdu world.pdus pdu.eventId = some pdu ∨
      pdu.eventId ∉ visited (authEventsOf world.pdus) starts) :
    Chained (pdu :: world.pdus) numbers starts chain := by
  have equal : descendants (authEventsOf (pdu :: world.pdus)) starts =
      descendants (authEventsOf world.pdus) starts := by
    refine descendants_congr (fun eventId passed => authEventsOf_cons ?_)
    refine same.imp_right (fun unseen isEvent => unseen ?_)
    rw [isEvent]
    exact passed
  exact ⟨fun eventId inside => chained.complete eventId (equal ▸ inside),
    fun short member => equal ▸ chained.sound short member⟩

theorem CacheInv.insertPdu (inv : CacheInv ids world)
    (listed : ∀ eventId ∈ pdu.authEvents, eventId ∈ ids)
    (orderly : world.Orderly (.insertPdu pdu)) :
    CacheInv ids { world with pdus := pdu :: world.pdus } := by
  refine ⟨forall_mem_cons.mpr ⟨listed, inv.cited⟩, inv.numbers, ?_, ?_⟩
  · intro short chain row
    obtain ⟨start, isShort, chained⟩ := inv.stored short chain row
    exact ⟨start, isShort, chained.insert (orderly.imp_right
      (fun unmet => inv.not_visited unmet (by rw [row]; rfl) isShort))⟩
  · intro entry member
    obtain ⟨⟨starts, named, chained⟩, stored⟩ := inv.memory entry member
    refine ⟨⟨starts, named, chained.insert ?_⟩, stored⟩
    refine orderly.imp_right (fun unmet passed => ?_)
    obtain ⟨start, listed, path⟩ := passed
    have isNamed : world.numbers.eventidShorteventid start ∈
        entry.1.map some := named ▸ mem_map_of_mem listed
    obtain ⟨short, inKey, isShort⟩ := mem_map.mp isNamed
    exact inv.not_visited unmet (stored short inKey) isShort.symm
      ⟨start, rfl, path⟩

end

theorem AuthWorld.Fresh.inv {world : AuthWorld} (fresh : world.Fresh)
    (room : world.HasRoom ids) : CacheInv ids world where
  cited := room.cited
  numbers := ⟨fresh.numbers, (Nat.add_le_add_left
    (Finset.card_filter_le _ _) _).trans room.counter⟩
  stored short chain row := by
    rw [fresh.stored short] at row
    cases row
  memory entry member := by
    rw [fresh.memory] at member
    cases member

theorem CacheInv.step {world : AuthWorld} (inv : CacheInv ids world)
    (action : AuthAction) (listed : ∀ eventId ∈ named action, eventId ∈ ids)
    (orderly : world.Orderly action) :
    CacheInv ids (world.step action).1 := by
  cases action with
  | insertPdu pdu => exact inv.insertPdu listed orderly
  | numberEvent eventId =>
      obtain ⟨kept, again, _⟩ :=
        getOrCreate_extends (forall_mem_singleton.mp listed) inv.numbers
      exact inv.extends_ kept again
  | clearCache =>
      refine ⟨inv.cited, inv.numbers, inv.stored, ?_⟩
      intro entry member
      cases member
  | getAuthChain roomId startingEvents =>
      have inside : ∀ eventId ∈ startingEvents, eventId ∈ ids := listed
      have meets := getAuthChain_meets inv inside orderly
      change CacheInv ids (ended (getAuthChain roomId startingEvents world))
      cases result : getAuthChain roomId startingEvents world with
      | ok chain after | error error after =>
          rw [result] at meets
          exact meets.1

theorem CacheInv.answersExactly {world : AuthWorld} (inv : CacheInv ids world)
    {roomId : RoomId} {startingEvents : List EventId}
    (listed : ∀ eventId ∈ startingEvents, eventId ∈ ids)
    (orderly : world.Orderly (.getAuthChain roomId startingEvents)) :
    AnswersExactly world.pdus roomId startingEvents
      (world.step (.getAuthChain roomId startingEvents)).1.numbers
      (world.step (.getAuthChain roomId startingEvents)).2 := by
  have meets := getAuthChain_meets inv listed orderly
  change AnswersExactly world.pdus roomId startingEvents
    (ended (getAuthChain roomId startingEvents world)).numbers
    (outcome (getAuthChain roomId startingEvents world))
  cases result : getAuthChain roomId startingEvents world with
  | ok chain after | error error after =>
      rw [result] at meets
      exact meets.2

theorem answersExactly_of_orderly {first world : AuthWorld}
    {history : List (Entry AuthWorld AuthAction
      (Except AuthChainError (List ShortEventId)))}
    (fresh : first.Fresh) (reaches : Reaches step first history world)
    (room : first.HasRoom ids)
    (listed : ∀ entry ∈ history, ∀ eventId ∈ named entry.input, eventId ∈ ids)
    (orderly : ∀ entry ∈ history, entry.before.Orderly entry.input) :
    ∀ entry ∈ history, ∀ roomId startingEvents,
      entry.input = .getAuthChain roomId startingEvents →
      AnswersExactly entry.before.pdus roomId startingEvents
        (entry.before.step entry.input).1.numbers entry.output := by
  intro entry member roomId startingEvents isCall
  obtain ⟨earlier, later, split⟩ := append_of_mem member
  obtain ⟨begins, same⟩ := reaches.entry split
  have permitted : ∀ other ∈ earlier,
      (∀ eventId ∈ named other.input, eventId ∈ ids) ∧
        other.before.Orderly other.input := by
    intro other inside
    have member : other ∈ history := split ▸ mem_append_left _ inside
    exact ⟨listed other member, orderly other member⟩
  have inv : CacheInv ids entry.before :=
    Reaches.invariant (fun _ world => CacheInv ids world) (fresh.inv room)
      (fun _ world action inv permitted =>
        inv.step action permitted.1 permitted.2)
      begins (Always.of_forall_mem permitted)
  have call := orderly entry member
  have inside := listed entry member
  have answer : entry.output = (entry.before.step entry.input).2 :=
    congrArg Entry.output same
  rw [answer]
  rw [isCall] at call inside ⊢
  exact inv.answersExactly inside call

theorem staysIn_of_forall {pdus : List Pdu} {roomId : RoomId}
    {starts : Set EventId}
    (every : ∀ pdu ∈ pdus, inOtherRoom roomId pdu = false) :
    StaysIn pdus roomId starts :=
  fun _ _ pdu found => every pdu (getPdu_mem found).1

namespace LateOutlier

def event (eventId : EventId) (kind : EventType)
    (authEvents : List EventId) : Pdu :=
  { Pdu.message eventId "!room:h" "@alice:h" with
    kind, content := .null, stateKey := some "", authEvents }

def create : Pdu := event "$create" .roomCreate []

def joinRules : Pdu := event "$rules" .roomJoinRules ["$create"]

def name : Pdu := event "$name" (.other "m.room.name") ["$rules"]

def empty : AuthWorld where
  pdus := []
  numbers := ⟨0, fun _ => none⟩
  shorteventidAuthchain _ := none
  authChainCache := ⟨10, []⟩

theorem empty_fresh : empty.Fresh := by
  refine ⟨⟨?_, ?_⟩, fun _ => rfl, rfl⟩
  · intro eventId other short found
    cases found
  · intro eventId short found
    cases found

theorem empty_hasRoom : empty.HasRoom {"$create", "$rules", "$name"} :=
  ⟨by decide +kernel, by decide +kernel⟩

def call (eventId : EventId) : AuthAction :=
  .getAuthChain "!room:h" [eventId]

def calledLast : List AuthAction :=
  [.insertPdu create, .insertPdu joinRules, call "$rules", .insertPdu name,
    call "$name"]

def calledEarly : List AuthAction :=
  [.insertPdu create, .insertPdu name, call "$name", .insertPdu joinRules,
    call "$name"]

theorem calledLast_exact :
    (run step empty calledLast).1.map Entry.output =
        [.ok [], .ok [], .ok [2], .ok [], .ok [1, 2]] ∧
      ∀ entry ∈ (run step empty calledLast).1,
        ∀ roomId startingEvents,
          entry.input = .getAuthChain roomId startingEvents →
          AnswersExactly entry.before.pdus roomId startingEvents
            (entry.before.step entry.input).1.numbers entry.output := by
  refine ⟨by rfl, answersExactly_of_orderly empty_fresh (reaches_run _ _ _)
    empty_hasRoom (by decide +kernel) ?_⟩
  have inRoom : ∀ pdu ∈ [name, joinRules, create],
      inOtherRoom "!room:h" pdu = false := by decide +kernel
  refine forall_mem_cons.mpr ⟨.inr ?_, forall_mem_cons.mpr
    ⟨.inr ?_, forall_mem_cons.mpr ⟨.inl ?_,
      forall_mem_cons.mpr ⟨.inr ?_, forall_mem_cons.mpr ⟨.inl ?_, ?_⟩⟩⟩⟩⟩
  · intro short chain row
    cases row
  · intro short chain row
    cases row
  · exact staysIn_of_forall (fun pdu member =>
      inRoom pdu (mem_cons_of_mem _ member))
  · have unnumbered : (run step empty
        (calledLast.take 3)).2.numbers.eventidShorteventid "$name" = none := by
      decide +kernel
    intro short chain row own isOwn
    have known : some own = none := isOwn.symm.trans unnumbered
    cases known
  · exact staysIn_of_forall inRoom
  · intro entry member
    cases member

theorem not_answersExactly {numbers : EventNumbers} {chain : List ShortEventId}
    (unnumbered : numbers.eventidShorteventid "$create" = none) :
    ¬ AnswersExactly [joinRules, name, create] "!room:h" ["$name"] numbers
      (.ok chain) := by
  rintro ⟨_, _, chained⟩
  have begins : "$name" ∈ visited (authEventsOf [joinRules, name, create])
      { start | start ∈ ["$name"] } :=
    ⟨"$name", mem_singleton_self _, .refl⟩
  have toRules : "$rules" ∈ descendants
      (authEventsOf [joinRules, name, create]) { start | start ∈ ["$name"] } :=
    descendants_step begins (by decide +kernel)
  have toCreate : "$create" ∈ descendants
      (authEventsOf [joinRules, name, create]) { start | start ∈ ["$name"] } :=
    descendants_step (mem_visited.mpr (.inr toRules)) (by decide +kernel)
  obtain ⟨short, _, isShort⟩ := chained.complete "$create" toCreate
  rw [unnumbered] at isShort
  cases isShort

/-- The chain that the first call has stored ends where the join rules were
missing. -/
theorem calledEarly_stale :
    (run step empty calledEarly).1.map Entry.output =
        [.ok [], .ok [], .ok [2], .ok [], .ok [2]] ∧
      ¬ ∀ first world history, AuthWorld.Fresh first →
        Reaches step first history world →
        ∀ entry ∈ history, ∀ roomId startingEvents,
          entry.input = .getAuthChain roomId startingEvents →
          AnswersExactly entry.before.pdus roomId startingEvents
            (entry.before.step entry.input).1.numbers entry.output := by
  refine ⟨by rfl, fun all => ?_⟩
  have reaches := reaches_run step empty calledEarly
  have last : entryOf step
      (run step empty (calledEarly.take 4)).2 (call "$name") ∈
      (run step empty calledEarly).1 := by
    simp [calledEarly, run]
  have answer := all _ _ _ empty_fresh reaches _ last "!room:h" ["$name"] rfl
  exact not_answersExactly (by decide +kernel) answer

end LateOutlier

end ArcanaServer.Rooms
